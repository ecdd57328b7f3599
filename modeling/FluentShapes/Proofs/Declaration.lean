import FluentShapes.Proofs.Keys
import FluentShapes.Proofs.Module
import FluentShapes.Proofs.Readability

/-!
# Declarations can be read back

Every part of a declaration module is readable in front of what the module puts behind it: a literal
in front of anything that is not part of a number, a type in front of the end of its property, a
shape in front of anything.  So the module determines what is printed of its index.
-/

namespace FluentShapes

/-! ## Literals -/

/-- The characters that numerals are made of. -/
def isNumeralPart (c : Char) : Bool := c.isDigit || c = '.' || c = '-'

theorem isNumeralPart_of_isDigit {c : Char} (h : c.isDigit = true) : isNumeralPart c = true := by
  simp [isNumeralPart, h]

namespace Decimal

theorem isNumeralPart_of_mem_toDigits {n : Nat} {c : Char} (h : c ∈ Nat.toDigits 10 n) :
    isNumeralPart c = true :=
  isNumeralPart_of_isDigit (Nat.isDigit_of_mem_toDigits (by decide) (by decide) h)

theorem isNumeralPart_of_mem_render (d : Decimal) {c : Char} (h : c ∈ d.render) :
    isNumeralPart c = true := by
  unfold render at h
  dsimp only at h
  split at h
  · exact isNumeralPart_of_mem_toDigits h
  · rw [List.mem_append, List.mem_cons, List.mem_append, List.mem_replicate] at h
    rcases h with h | rfl | ⟨-, rfl⟩ | h
    · exact isNumeralPart_of_mem_toDigits h
    · rfl
    · rfl
    · exact isNumeralPart_of_mem_toDigits h

theorem render_ne_nil (d : Decimal) : d.render ≠ [] := by
  unfold render
  dsimp only
  split
  · exact Nat.toDigits_ne_nil
  · exact List.append_ne_nil_of_left_ne_nil Nat.toDigits_ne_nil _

end Decimal

/-- A normal form is a word of numeral characters. -/
theorem Numeral.normalize?_word {text numeral : String} (h : normalize? text = some numeral) :
    numeral.toList ≠ [] ∧ ∀ c ∈ numeral.toList, isNumeralPart c = true := by
  simp only [normalize?, bind, Option.bind_eq_some_iff, pure, Option.some.injEq] at h
  obtain ⟨n, -, units, -, rfl⟩ := h
  have hmagnitude : (if units = 0 then ['0'] else (Binary64.shortest units).render) ≠ [] ∧
      ∀ c ∈ if units = 0 then ['0'] else (Binary64.shortest units).render,
        isNumeralPart c = true := by
    split
    · exact ⟨by simp, by simp; rfl⟩
    · exact ⟨Decimal.render_ne_nil _, fun c hc ↦ Decimal.isNumeralPart_of_mem_render _ hc⟩
  rw [String.toList_ofList]
  split
  · refine ⟨by simp, fun c hc ↦ ?_⟩
    rcases List.mem_cons.mp hc with rfl | hc
    · rfl
    · exact hmagnitude.2 c hc
  · exact hmagnitude

/-- A literal is a quoted text or a word of numeral characters. -/
theorem LiteralKey.declaration_cases (key : LiteralKey) :
    (∃ text, key.declaration = quote text) ∨
      key.declaration.toList ≠ [] ∧ ∀ c ∈ key.declaration.toList, isNumeralPart c = true := by
  cases key with
  | string text => exact .inl ⟨text, rfl⟩
  | number text =>
      cases h : Numeral.normalize? text with
      | none => exact .inl ⟨text, by rw [declaration, h, Option.getD_none]⟩
      | some numeral =>
          rw [declaration, h, Option.getD_some]
          exact .inr (Numeral.normalize?_word h)

theorem LiteralKey.readable_declaration :
    Readable (StartsOutside isNumeralPart) (fun key : LiteralKey ↦ key.declaration.toList)
      declaration :=
  readable_of_quote_or_word rfl declaration_cases

/-! ## Properties -/

theorem isPropertyPart_of_isPropertyStart {c : Char} (h : isPropertyStart c = true) :
    isPropertyPart c = true := by
  unfold isPropertyStart at h
  unfold isPropertyPart Char.isAlphanum
  grind

theorem isPlainProperty_word {name : String} (h : isPlainProperty name = true) :
    name.toList ≠ [] ∧ ∀ c ∈ name.toList, isPropertyPart c = true := by
  unfold isPlainProperty at h
  split at h
  · cases h
  · rename_i c rest hname
    rw [hname]
    rw [Bool.and_eq_true, List.all_eq_true] at h
    refine ⟨List.cons_ne_nil c rest, ?_⟩
    rintro d (_ | ⟨_, hd⟩)
    · exact isPropertyPart_of_isPropertyStart h.1
    · exact h.2 d hd

theorem propertyName_cases (name : String) :
    (∃ text, propertyName name = quote text) ∨
      (propertyName name).toList ≠ [] ∧
        ∀ c ∈ (propertyName name).toList, isPropertyPart c = true := by
  unfold propertyName
  split
  · exact .inr (isPlainProperty_word ‹_›)
  · exact .inl ⟨name, rfl⟩

theorem propertyName_injective {name name' : String} (h : propertyName name = propertyName name') :
    name = name' := by
  have hne : ∀ {plain : String} (text : String), isPlainProperty plain = true →
      plain ≠ quote text := by
    intro plain text hplain heq
    obtain ⟨hnil, hword⟩ := isPlainProperty_word hplain
    exact word_append_ne_quote_append rfl hnil hword text [] [] (by rw [heq])
  unfold propertyName at h
  split at h <;> split at h
  · exact h
  · exact absurd h (hne _ ‹_›)
  · exact absurd h.symm (hne _ ‹_›)
  · exact quote_injective h

theorem readable_propertyName :
    Readable (StartsOutside isPropertyPart) (fun name ↦ (propertyName name).toList) id := by
  intro name name' r s hr hs heq
  obtain ⟨hname, hrest⟩ := readable_of_quote_or_word rfl propertyName_cases hr hs heq
  exact ⟨propertyName_injective hname, hrest⟩

/-! ## Types -/

/-- What stands behind the type of a property: the next property or the end of the shape. -/
inductive BehindType : List Char → Prop
  | semicolon (r : List Char) : BehindType (';' :: r)
  | brace (r : List Char) : BehindType (' ' :: '\x7d' :: r)

theorem BehindType.startsOutside {p : Char → Bool} (hsemicolon : p ';' = false)
    (hspace : p ' ' = false) {r : List Char} (h : BehindType r) : StartsOutside p r := by
  rintro c hc
  cases h with
  | semicolon r =>
      cases hc
      exact hsemicolon
  | brace r =>
      cases hc
      exact hspace

theorem BehindType.ne_bar {r : List Char} (h : BehindType r) (s : List Char) :
    " | ".toList ++ s ≠ r := by
  rintro rfl
  cases h

theorem isPropertyStart_eq_false_of_isNumeralPart {c : Char} (h : isNumeralPart c = true) :
    isPropertyStart c = false := by
  simp only [isNumeralPart, Bool.or_eq_true, decide_eq_true_eq] at h
  rcases h with (h | rfl) | rfl
  · have halpha : c.isAlpha = false := by
      unfold Char.isDigit at h
      unfold Char.isAlpha Char.isUpper Char.isLower
      grind
    have hunderscore : c ≠ '_' := by
      rintro rfl
      cases h
    have hdollar : c ≠ '$' := by
      rintro rfl
      cases h
    simp [isPropertyStart, halpha, hunderscore, hdollar]
  · rfl
  · rfl

theorem LiteralKey.startsOutside_declaration (key : LiteralKey) (r : List Char) :
    StartsOutside isPropertyStart (key.declaration.toList ++ r) := by
  rcases key.declaration_cases with ⟨text, htext⟩ | ⟨hne, hword⟩
  · rw [htext, quote, String.toList_ofList]
    rintro c ⟨⟩
    rfl
  · cases hkey : key.declaration.toList with
    | nil => exact absurd hkey hne
    | cons c rest =>
        rintro d ⟨⟩
        exact isPropertyStart_eq_false_of_isNumeralPart (hword c (hkey ▸ List.mem_cons_self))

theorem LiteralKey.startsOutside_union (key : LiteralKey) (keys : List LiteralKey)
    (r : List Char) :
    StartsOutside isPropertyStart
      ((" | ".intercalate ((key :: keys).map declaration)).toList ++ r) := by
  rw [String.toList_intercalate, List.map_map, Readable.intercalate_map_cons, List.append_assoc]
  exact key.startsOutside_declaration _

theorem isPlainProperty_append_ne {name : String} (h : isPlainProperty name = true)
    (r : List Char) {s : List Char} (hs : StartsOutside isPropertyStart s) :
    name.toList ++ r ≠ s := by
  rintro rfl
  unfold isPlainProperty at h
  split at h
  · cases h
  · rename_i c rest hname
    rw [hs c (by rw [hname]; rfl)] at h
    cases h

namespace ArgumentType

/-- What is printed of a type: nothing but its name, or the literals of its keys. -/
def literals? : ArgumentType → Option (List String)
  | opaqueType => none
  | union keys => some (keys.toList.map LiteralKey.declaration)

/-- A type is printed as a name or as literals, and the name tells an unknown type from an empty
union. -/
theorem declaration_cases {opaqueName : String} (hplain : isPlainProperty opaqueName = true)
    (hnever : opaqueName ≠ "never") (type : ArgumentType) :
    (∃ name, isPlainProperty name = true ∧ type.declaration opaqueName = name ∧
        type.literals? = if name = "never" then some [] else none) ∨
      ∃ key keys, type.literals? = some ((key :: keys).map LiteralKey.declaration) ∧
        type.declaration opaqueName =
          " | ".intercalate ((key :: keys).map LiteralKey.declaration) := by
  cases type with
  | opaqueType => exact .inl ⟨opaqueName, hplain, rfl, (if_neg hnever).symm⟩
  | union keys =>
      obtain ⟨keys, hnodup⟩ := keys
      cases keys with
      | nil => exact .inl ⟨"never", by decide, rfl, rfl⟩
      | cons key keys => exact .inr ⟨key, keys, rfl, rfl⟩

theorem readable_declaration {opaqueName : String} (hplain : isPlainProperty opaqueName = true)
    (hnever : opaqueName ≠ "never") :
    Readable BehindType (fun type : ArgumentType ↦ (type.declaration opaqueName).toList)
      literals? := by
  have hliterals := LiteralKey.readable_declaration.intercalate " | ".toList
    (fun r ↦ by rintro c ⟨⟩; rfl) (fun r hr ↦ hr.startsOutside rfl rfl)
    (fun r s hs ↦ BehindType.ne_bar hs r)
  intro t u r s hr hs heq
  beta_reduce at heq
  -- No literal starts like a name, so both types are printed in the same way.
  rcases declaration_cases hplain hnever t with ⟨name, hname, ht, htview⟩ | ⟨k, ks, htview, ht⟩ <;>
    rcases declaration_cases hplain hnever u with ⟨name', hname', hu, huview⟩ | ⟨l, ls, huview, hu⟩
  · rw [ht, hu] at heq
    obtain ⟨hnames, hrest⟩ := word_append_inj (isPlainProperty_word hname).2
      (isPlainProperty_word hname').2 (hr.startsOutside rfl rfl) (hs.startsOutside rfl rfl) heq
    rw [htview, huview, String.toList_injective hnames]
    exact ⟨rfl, hrest⟩
  · rw [ht, hu] at heq
    exact absurd heq (isPlainProperty_append_ne hname r (LiteralKey.startsOutside_union l ls s))
  · rw [ht, hu] at heq
    exact absurd heq.symm
      (isPlainProperty_append_ne hname' s (LiteralKey.startsOutside_union k ks r))
  · rw [ht, hu, String.toList_intercalate, String.toList_intercalate, List.map_map,
      List.map_map] at heq
    obtain ⟨hviews, hrest⟩ := @hliterals (k, ks) (l, ls) r s hr hs heq
    rw [htview, huview]
    exact ⟨congrArg some hviews, hrest⟩

end ArgumentType

/-! ## Shapes -/

namespace Shape

/-- What is printed of a shape. -/
def literals (s : Shape) : List (String × Option (List String)) :=
  s.entries.map (Prod.map id ArgumentType.literals?)

variable {opaqueName : String}

theorem readable_property (hplain : isPlainProperty opaqueName = true)
    (hnever : opaqueName ≠ "never") :
    Readable BehindType (fun e : String × ArgumentType ↦ (property opaqueName e.1 e.2).toList)
      (Prod.map id ArgumentType.literals?) := by
  have htype := (ArgumentType.readable_declaration hplain hnever).append_left ": ".toList
  have hpair := readable_propertyName.pair htype fun type r _ ↦ by
    rintro c ⟨⟩
    rfl
  intro e e' r s hr hs heq
  refine hpair.append_left "readonly ".toList hr hs ?_
  simpa only [property, String.toList_append, List.append_assoc] using heq

/-- A shape is printed as a fixed text or as its properties in braces. -/
theorem declaration_toList (opaqueName : String) (s : Shape) :
    s.entries = [] ∧ (s.declaration opaqueName).toList = "Record<string, never>".toList ∨
      ∃ e es, s.entries = e :: es ∧
        (s.declaration opaqueName).toList = "\x7b ".toList ++ ("; ".toList.intercalate
          ((e :: es).map fun e ↦ (property opaqueName e.1 e.2).toList) ++ " \x7d".toList) := by
  cases hs : s.entries with
  | nil => exact .inl ⟨rfl, by rw [declaration, Table.isEmpty, hs]; rfl⟩
  | cons e es =>
      refine .inr ⟨e, es, rfl, ?_⟩
      rw [declaration, Table.isEmpty, hs, List.isEmpty_cons, if_neg Bool.false_ne_true,
        String.toList_append, String.toList_append, String.toList_intercalate, List.map_map,
        List.append_assoc]
      rfl

theorem readable_declaration (hplain : isPlainProperty opaqueName = true)
    (hnever : opaqueName ≠ "never") :
    Readable (fun _ ↦ True) (fun s : Shape ↦ (s.declaration opaqueName).toList) literals := by
  have hproperties := (readable_property hplain hnever).intercalate "; ".toList
    (Q := fun r ↦ ∃ t, r = ' ' :: '\x7d' :: t) (fun r ↦ .semicolon _)
    (by rintro r ⟨t, rfl⟩; exact .brace t) (by rintro r s ⟨t, rfl⟩ ⟨⟩)
  have hbraces := (hproperties.append_right " \x7d".toList
    fun r (_ : True) ↦ ⟨r, rfl⟩).append_left "\x7b ".toList
  intro s t r u hr hu heq
  beta_reduce at heq
  rcases declaration_toList opaqueName s with ⟨hs, hstext⟩ | ⟨e, es, hs, hstext⟩ <;>
    rcases declaration_toList opaqueName t with ⟨ht, httext⟩ | ⟨e', es', ht, httext⟩ <;>
    rw [hstext, httext] at heq
  · rw [literals, literals, hs, ht]
    exact ⟨rfl, List.append_cancel_left heq⟩
  · cases heq
  · cases heq
  · rw [literals, literals, hs, ht]
    exact @hbraces (e, es) (e', es') r u hr hu heq

end Shape

/-! ## Modules -/

namespace Declaration

theorem readable_idUnion :
    Readable (fun r ↦ ∃ t, r = ';' :: t) (fun ids ↦ (idUnion ids).toList) id := by
  have hquotes := readable_quote.intercalate " | ".toList (Q := fun r ↦ ∃ t, r = ';' :: t)
    (fun _ ↦ trivial) (fun _ _ ↦ trivial) (by rintro r s ⟨t, rfl⟩ ⟨⟩)
  have hcons : ∀ (id : String) (ids : List String), (idUnion (id :: ids)).toList =
      " | ".toList.intercalate ((id :: ids).map fun id ↦ (quote id).toList) := by
    intro id ids
    rw [idUnion, List.isEmpty_cons, if_neg Bool.false_ne_true, String.toList_intercalate,
      List.map_map]
    rfl
  have hnever : ∀ (id : String) (ids : List String) (r s : List Char),
      (idUnion []).toList ++ r ≠ (idUnion (id :: ids)).toList ++ s := by
    intro id ids r s heq
    rw [hcons, Readable.intercalate_map_cons, List.append_assoc] at heq
    exact word_append_ne_quote_append rfl (by decide) (isPlainProperty_word (by decide)).2 _ _ _ heq
  intro ids ids' r s hr hs heq
  beta_reduce at heq
  cases ids with
  | nil =>
      cases ids' with
      | nil => exact ⟨rfl, List.append_cancel_left heq⟩
      | cons id' ids' => exact absurd heq (hnever id' ids' r s)
  | cons id ids =>
      cases ids' with
      | nil => exact absurd heq.symm (hnever id ids s r)
      | cons id' ids' =>
          rw [hcons, hcons] at heq
          simpa only [List.map_id, id_eq] using @hquotes (id, ids) (id', ids') r s hr hs heq

variable {opaqueName : String}

theorem readable_member (hplain : isPlainProperty opaqueName = true)
    (hnever : opaqueName ≠ "never") :
    Readable (fun _ ↦ True) (fun e : String × Shape ↦ (member opaqueName e).toList)
      (Prod.map id Shape.literals) := by
  have hshape := ((Shape.readable_declaration hplain hnever).append_right ";".toList
    fun r (_ : True) ↦ trivial).append_left ": ".toList
  have hpair := readable_quote.pair hshape fun _ _ _ ↦ trivial
  intro e e' r s hr hs heq
  refine hpair hr hs ?_
  simpa only [member, String.toList_append, List.append_assoc] using heq

/-- The text of a module from the end of its header to the end of the union of ids. -/
def idsText (opaqueName : String) (arguments : List (String × Shape)) (ids : List String) :
    List Char :=
  linesText ["export interface MessageArguments \x7b"] ++
    (linesText ((arguments.map (member opaqueName)).map fun text ↦ "  " ++ text) ++
      (linesText ["\x7d", ""] ++ "export type NoArgumentId = ".toList ++ (idUnion ids).toList))

theorem readable_idsText (hplain : isPlainProperty opaqueName = true)
    (hnever : opaqueName ≠ "never") :
    Readable (fun r ↦ ∃ t, r = ';' :: t)
      (fun p : List (String × Shape) × List String ↦ idsText opaqueName p.1 p.2)
      (Prod.map (List.map (Prod.map id Shape.literals)) id) := by
  have hline : Readable (fun _ ↦ True)
      (fun e : String × Shape ↦ "  ".toList ++ ((member opaqueName e).toList ++ ['\n'])) _ :=
    ((readable_member hplain hnever).append_right ['\n'] fun r (_ : True) ↦ trivial).append_left _
  have hlines := hline.flatMap (Q := fun r ↦ ∃ t, r = '\x7d' :: t) (fun _ _ ↦ trivial)
    (fun _ _ ↦ trivial) (by rintro e r s ⟨t, rfl⟩ ⟨⟩)
  have hunion := readable_idUnion.append_left
    (linesText ["\x7d", ""] ++ "export type NoArgumentId = ".toList)
  have htext : ∀ es : List (String × Shape),
      linesText ((es.map (member opaqueName)).map fun text ↦ "  " ++ text) =
        es.flatMap fun e ↦ "  ".toList ++ ((member opaqueName e).toList ++ ['\n']) := by
    intro es
    simp only [linesText, List.flatMap_map, String.toList_append, List.append_assoc]
  simp only [idsText, htext]
  exact (hlines.pair hunion fun ids r _ ↦ ⟨_, rfl⟩).append_left _

theorem linesText_bodyLines (index : Index) (locale : Option Locale) (opaqueName : String) :
    ∃ rest, linesText (bodyLines index locale opaqueName) =
      idsText opaqueName index.argumentIds index.noArgumentIds ++ ';' :: rest := by
  refine ⟨'\n' :: linesText ([""] ++ overloadLines index ++ localeLines locale ++ footer), ?_⟩
  simp only [bodyLines, interfaceLines, noArgumentLines, idsText, linesText_append, linesText_cons,
    linesText_nil, String.toList_append, List.append_assoc, List.nil_append, List.cons_append]
  rfl

end Declaration

/-! ## Faithfulness -/

theorem isPlainProperty_of_propertyName_eq {name : String} (h : propertyName name = name) :
    isPlainProperty name = true := by
  by_contra hplain
  rw [propertyName, if_neg hplain] at h
  exact quote_ne_self name h

theorem eq_of_map_eq_map {α β : Type} {f : α → β} {l m : List α}
    (hf : ∀ a ∈ l, ∀ b ∈ m, f a = f b → a = b) (h : l.map f = m.map f) : l = m := by
  induction l generalizing m with
  | nil => exact (List.map_eq_nil_iff.mp h.symm).symm
  | cons a l ih =>
      cases m with
      | nil => cases h
      | cons b m =>
          rw [List.map_cons, List.map_cons, List.cons.injEq] at h
          rw [hf a List.mem_cons_self b List.mem_cons_self h.1,
            ih (fun a ha b hb ↦ hf a (.tail _ ha) b (.tail _ hb)) h.2]

theorem ArgumentType.eq_of_literals?_eq {t u : ArgumentType} (ht : ¬ t.HasNumberKey)
    (hu : ¬ u.HasNumberKey) (h : t.literals? = u.literals?) : t = u := by
  cases t with
  | opaqueType =>
      cases u with
      | opaqueType => rfl
      | union keys => cases h
  | union keys =>
      cases u with
      | opaqueType => cases h
      | union keys' =>
          refine congrArg union (Distinct.eq_of_toList_eq ?_)
          refine eq_of_map_eq_map (fun k hk l hl hkl ↦ ?_) (Option.some.inj h)
          cases k with
          | number text => exact absurd ⟨text, hk⟩ ht
          | string text =>
              cases l with
              | number text' => exact absurd ⟨text', hl⟩ hu
              | string text' => rw [quote_injective hkl]

theorem Shape.eq_of_literals_eq {s t : Shape} (hs : ¬ s.HasNumberKey) (ht : ¬ t.HasNumberKey)
    (h : s.literals = t.literals) : s = t := by
  refine Table.eq_of_entries_eq (eq_of_map_eq_map ?_ h)
  rintro ⟨x, type⟩ hmem ⟨y, type'⟩ hmem' heq
  obtain ⟨hname, htype⟩ := Prod.ext_iff.mp heq
  refine Prod.ext hname (ArgumentType.eq_of_literals?_eq ?_ ?_ htype)
  · exact fun hnumber ↦ hs ⟨x, type, hmem, hnumber⟩
  · exact fun hnumber ↦ ht ⟨y, type', hmem', hnumber⟩

namespace Index

variable {request : Request} {options : CompileOptions} {i j : Index} {text : String}

theorem moduleText_eq_of_declarations_eq (h : i.declarations request options = .ok text) :
    Declaration.moduleText i request options = text := by
  unfold declarations at h
  split at h
  · cases h
  · exact Except.ok.inj h

theorem argumentIds_eq_of_literals_eq (hi : ¬ i.HasNumberKey) (hj : ¬ j.HasNumberKey)
    (h : i.argumentIds.map (Prod.map id Shape.literals) =
      j.argumentIds.map (Prod.map id Shape.literals)) : i.argumentIds = j.argumentIds := by
  refine eq_of_map_eq_map ?_ h
  rintro ⟨id, s⟩ hs ⟨id', t⟩ ht heq
  obtain ⟨hid, hshape⟩ := Prod.ext_iff.mp heq
  rw [mem_argumentIds_iff, ← Table.mem_entries_iff] at hs ht
  refine Prod.ext hid (Shape.eq_of_literals_eq ?_ ?_ hshape)
  · exact fun hnumber ↦ hi ⟨id, s, hs, hnumber⟩
  · exact fun hnumber ↦ hj ⟨id', t, ht, hnumber⟩

/-- The text of a module shows which ids take arguments and which do not, in their order, and of
each argument its name and how its type is printed.  Where all keys are strings nothing is lost. -/
theorem declarations_faithful (hname : propertyName options.opaqueType = options.opaqueType)
    (hnever : options.opaqueType ≠ "never") (hi : i.declarations request options = .ok text)
    (hj : j.declarations request options = .ok text) :
    (i.argumentIds.map fun (id, s) ↦ (id, s.literals)) =
        (j.argumentIds.map fun (id, s) ↦ (id, s.literals)) ∧
      i.noArgumentIds = j.noArgumentIds ∧
      (¬ i.HasNumberKey → ¬ j.HasNumberKey → i.argumentIds = j.argumentIds) := by
  have htext : (Declaration.moduleText i request options).toList =
      (Declaration.moduleText j request options).toList := by
    rw [moduleText_eq_of_declarations_eq hi, moduleText_eq_of_declarations_eq hj]
  -- The headers agree, and what comes behind the ids does not matter.
  obtain ⟨resti, hresti⟩ := Declaration.linesText_bodyLines i request.locale options.opaqueType
  obtain ⟨restj, hrestj⟩ := Declaration.linesText_bodyLines j request.locale options.opaqueType
  rw [Declaration.moduleText_eq, Declaration.moduleText_eq, List.append_cancel_left_eq, hresti,
    hrestj] at htext
  have hplain := isPlainProperty_of_propertyName_eq hname
  obtain ⟨hviews, -⟩ := @Declaration.readable_idsText _ hplain hnever
    (i.argumentIds, i.noArgumentIds) (j.argumentIds, j.noArgumentIds) _ _ ⟨_, rfl⟩ ⟨_, rfl⟩ htext
  obtain ⟨harguments, hids⟩ := Prod.ext_iff.mp hviews
  exact ⟨harguments, hids, fun hi hj ↦ argumentIds_eq_of_literals_eq hi hj harguments⟩

/-- An index whose texts look like what is printed between them. -/
def lookalike (key : LiteralKey) : Index :=
  .ofList [("a\": b;", some (.ofList [("x | y", .ofKeys [key, .string "\" \x7d;\n"]),
    ("z", .opaqueType)])), ("c\n\\", none), ("d", some ∅)]

/-- A number that is not finite is printed like a string; all else is told apart. -/
theorem declarations_faithful_lookalike :
    propertyName CompileOptions.default.opaqueType = CompileOptions.default.opaqueType ∧
      CompileOptions.default.opaqueType ≠ "never" ∧
      ∃ text, (lookalike (.number "inf")).declarations ⟨"a.ftl", none⟩ .default = .ok text ∧
        (lookalike (.string "inf")).declarations ⟨"a.ftl", none⟩ .default = .ok text ∧
        ((lookalike (.number "inf")).argumentIds.map fun (id, s) ↦ (id, s.literals)) =
          ((lookalike (.string "inf")).argumentIds.map fun (id, s) ↦ (id, s.literals)) ∧
        (lookalike (.number "inf")).noArgumentIds = (lookalike (.string "inf")).noArgumentIds := by
  have hname : propertyName CompileOptions.default.opaqueType =
      CompileOptions.default.opaqueType := by decide
  have hnever : CompileOptions.default.opaqueType ≠ "never" := by decide
  have htext : (lookalike (.string "inf")).declarations ⟨"a.ftl", none⟩ .default =
      (lookalike (.number "inf")).declarations ⟨"a.ftl", none⟩ .default := by rfl
  obtain ⟨hviews, hids, -⟩ := declarations_faithful hname hnever rfl htext
  exact ⟨hname, hnever, _, rfl, htext, hviews, hids⟩

end Index

end FluentShapes

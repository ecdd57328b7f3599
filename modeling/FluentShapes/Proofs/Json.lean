import FluentShapes.Proofs.JsonGrammar

/-!
# Reading JSON that was written

What is written obeys the grammar, whatever blanks its layout puts between its parts
(`Json.Textual.spells_write`).  So it is read back.
-/

namespace FluentShapes.Json

/-! ## Strings -/

theorem hexCode?_hexDigit :
    ∀ n < 32, hexCode? '0' '0' (hexDigit (n / 16)) (hexDigit (n % 16)) = some n := by decide

theorem unitOfCode_toNat {c : Char} (h : c.toNat < 32) : unitOfCode c.toNat = .char c := by
  have hcode : ¬ 0xD800 ≤ c.toNat := by omega
  simp [unitOfCode, hcode]

theorem SpellsUnits.escapeChar_append (c : Char) {s : List Char} {units : List Unit16}
    (h : SpellsUnits s units) : SpellsUnits (escapeChar c ++ s) (.char c :: units) := by
  unfold escapeChar
  split_ifs with hquote hbackslash hbackspace hfeed hline hreturn htab hcontrol
  · exact .escape (by rw [hquote]; rfl) h
  · exact .escape (by rw [hbackslash]; rfl) h
  · exact .escape (by rw [hbackspace]; rfl) h
  · exact .escape (by rw [hfeed]; rfl) h
  · exact .escape (by rw [hline]; rfl) h
  · exact .escape (by rw [hreturn]; rfl) h
  · exact .escape (by rw [htab]; rfl) h
  · have hlt : c.toNat < 32 := hcontrol
    rw [← unitOfCode_toNat hlt]
    exact .code (hexCode?_hexDigit c.toNat hlt) h
  · exact .char (Char.not_lt.mp hcontrol) hquote hbackslash h

theorem spellsUnits_flatMap (text : List Char) :
    SpellsUnits (text.flatMap escapeChar) (text.map .char) := by
  induction text with
  | nil => exact .nil
  | cons c text ih => exact ih.escapeChar_append c

theorem pairUnits?_map_char (text : List Char) : pairUnits? (text.map .char) = some text := by
  induction text with
  | nil => rfl
  | cons c text ih => rw [List.map_cons, pairUnits?, ih, Option.map_some]

theorem spellsString_writeString (text : String) :
    SpellsString (writeString text) (some text) := by
  have h := SpellsString.mk (spellsUnits_flatMap text.toList)
  rwa [pairUnits?_map_char, Option.map_some, String.ofList_toList] at h

/-! ## Layouts -/

/-- A layout that puts nothing but blanks between the parts of a value. -/
structure Layout.Blank (layout : Layout) : Prop where
  newline_blank : ∀ depth, ∀ c ∈ layout.newline depth, isBlank c = true
  colon_blank : ∃ blanks, layout.colon = ':' :: blanks ∧ ∀ c ∈ blanks, isBlank c = true

theorem Layout.blank_compact : Layout.compact.Blank := by
  refine ⟨?_, [], rfl, ?_⟩
  · rintro depth c ⟨⟩
  · rintro c ⟨⟩

theorem Layout.blank_pretty : Layout.pretty.Blank := by
  refine ⟨fun depth c hc ↦ ?_, [' '], rfl, fun c hc ↦ ?_⟩
  · rcases List.mem_cons.mp hc with rfl | hc
    · rfl
    · rw [(List.mem_replicate.mp hc).2]
      rfl
  · rw [List.mem_singleton.mp hc]
    rfl

/-! ## Values without numbers -/

/-- A value made of texts, truth values and nothing, in arrays and objects. -/
inductive Textual : Json → Prop
  | null : Textual .null
  | bool (value : Bool) : Textual (.bool value)
  | string (text : String) : Textual (.string text)
  | array {items : List Json} : (∀ v ∈ items, Textual v) → Textual (.array items)
  | object {members : List (String × Json)} : (∀ m ∈ members, Textual m.2) →
      Textual (.object members)

section Write

variable {layout : Layout}

theorem writeItems_cons (depth : Nat) (item : Json) (items : List Json) :
    writeItems layout depth (item :: items) = ',' :: (layout.newline depth ++
      item.write layout depth ++ writeItems layout depth items) := rfl

theorem writeMembers_cons (depth : Nat) (name : String) (value : Json)
    (members : List (String × Json)) :
    writeMembers layout depth ((name, value) :: members) = ',' :: (layout.newline depth ++
      writeString name ++ layout.colon ++ value.write layout depth ++
        writeMembers layout depth members) := rfl

/-- The inside of an array, from its opening bracket on. -/
theorem spells_writeItems (hlayout : layout.Blank) {depth : Nat} {b : List Char} (hb : Blanks b)
    {item : Json} {items : List Json}
    (h : ∀ v ∈ item :: items, Spells (v.write layout depth) (.value v)) :
    Spells (layout.newline depth ++ item.write layout depth ++ writeItems layout depth items ++ b)
      (.elements (item :: items)) := by
  induction items generalizing item with
  | nil =>
      have hitem := Spells.element (hlayout.newline_blank depth) (h item List.mem_cons_self) hb
      simpa [writeItems] using Spells.lastElement hitem
  | cons next items ih =>
      have hitem := Spells.element (hlayout.newline_blank depth) (h item List.mem_cons_self)
        blanks_nil
      have hmore := hitem.elements (ih fun v hv ↦ h v (List.mem_cons_of_mem item hv))
      simpa only [writeItems_cons, List.append_nil, List.append_assoc, List.cons_append] using hmore

theorem spells_writeMember (hlayout : layout.Blank) {depth : Nat} {b : List Char} (hb : Blanks b)
    (name : String) {value : Json} (h : Spells (value.write layout depth) (.value value)) :
    Spells (layout.newline depth ++ writeString name ++ layout.colon ++ value.write layout depth ++ b)
      (.member (some name) value) := by
  obtain ⟨blanks, hcolon, hblanks⟩ := hlayout.colon_blank
  have hmember := Spells.member (hlayout.newline_blank depth) (spellsString_writeString name)
    blanks_nil (.element hblanks h hb)
  simpa only [hcolon, List.nil_append, List.append_assoc, List.cons_append] using hmember

/-- The inside of an object, from its opening brace on. -/
theorem spells_writeMembers (hlayout : layout.Blank) {depth : Nat} {b : List Char} (hb : Blanks b)
    {name : String} {value : Json} {members : List (String × Json)}
    (h : ∀ m ∈ (name, value) :: members, Spells (m.2.write layout depth) (.value m.2)) :
    Spells (layout.newline depth ++ writeString name ++ layout.colon ++ value.write layout depth ++
        writeMembers layout depth members ++ b)
      (.members (((name, value) :: members).map fun m ↦ (some m.1, m.2))) := by
  induction members generalizing name value with
  | nil =>
      have hmember := spells_writeMember hlayout hb name (h _ List.mem_cons_self)
      simpa [writeMembers] using Spells.lastMember hmember
  | cons next members ih =>
      obtain ⟨name', value'⟩ := next
      have hmember := spells_writeMember hlayout blanks_nil name (h _ List.mem_cons_self)
      have hmore := hmember.members (ih fun m hm ↦ h m (List.mem_cons_of_mem _ hm))
      simpa only [writeMembers_cons, List.append_nil, List.append_assoc, List.cons_append,
        List.map_cons] using hmore

theorem Textual.spells_write (hlayout : layout.Blank) {value : Json} (h : value.Textual)
    (depth : Nat) : Spells (value.write layout depth) (.value value) := by
  induction h generalizing depth with
  | null => exact .null
  | bool value => exact .bool value
  | string text => exact .string (spellsString_writeString text)
  | @array items _ ih =>
      cases items with
      | nil => exact .emptyArray blanks_nil
      | cons item items =>
          exact .array (spells_writeItems hlayout (hlayout.newline_blank depth)
            fun v hv ↦ ih v hv (depth + 1))
  | @object members _ ih =>
      cases members with
      | nil => exact .object_named (.noMembers blanks_nil)
      | cons member members =>
          exact .object_named (.someMembers (spells_writeMembers hlayout
            (hlayout.newline_blank depth) fun m hm ↦ ih m hm (depth + 1)))

/-- What is written is read back, whatever the layout. -/
theorem parse?_render (hlayout : layout.Blank) {value : Json} (h : value.Textual) :
    parse? (value.render layout) = some value := by
  refine parse?_of_spells ?_
  rw [render, String.toList_ofList]
  exact .bare (h.spells_write hlayout 0)

end Write

end FluentShapes.Json

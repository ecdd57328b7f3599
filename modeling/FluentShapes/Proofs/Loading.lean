import FluentShapes.Proofs.Initialization
import FluentShapes.Proofs.Json

/-!
# Loading configurations

A configuration file that holds an object gives values to fields by name, and what it does not give
is as in the default configuration.  Fields have different types, so a `Field` comes with the `Kind`
of its values, and what the reader does with a field is stated once for all of them
(`Config.ofValues?_eq_some_iff`).  All that counts is then the list of values that are given for each
field (`Config.given`): the order of the members does not, and neither do members of other names.

Those members are still read.  Anything can stand behind their names, but a name whose escapes hold
half of a surrogate pair is no text, and then nothing is loaded.
-/

namespace FluentShapes

namespace CollisionPolicy

variable {policy : CollisionPolicy}

theorem ofName?_eq_some_iff {name : String} : ofName? name = some policy ↔ name = policy.name := by
  unfold ofName?
  split_ifs with hlast hreject
  · subst hlast
    cases policy <;> decide
  · subst hreject
    cases policy <;> decide
  · cases policy <;> simp [CollisionPolicy.name, hlast, hreject]

theorem ofJson?_eq_some_iff {value : Json} : ofJson? value = some policy ↔
    value = .string policy.name ∨ value = .object [(policy.name, .null)] := by
  unfold ofJson?
  split
  · simp [ofName?_eq_some_iff]
  · simp [ofName?_eq_some_iff]
  · rename_i hstring hobject
    constructor
    · rintro ⟨⟩
    · rintro (rfl | rfl)
      · exact absurd rfl (hstring _)
      · exact absurd rfl (hobject _)

end CollisionPolicy

namespace Config

/-! ## Fields -/

/-- What a field can hold. -/
inductive Kind where
  | text
  | optionalText
  | flag
  | policy

abbrev Kind.Value : Kind → Type
  | text => String
  | optionalText => Option String
  | flag => Bool
  | policy => CollisionPolicy

/-- The JSON values that stand for a value of the kind.  Only a text that need not be set can be
null. -/
def Kind.Denotes : (k : Kind) → Json → k.Value → Prop
  | text, value, a => value = .string a
  | optionalText, value, a => value = .null ∧ a = none ∨ ∃ dir, value = .string dir ∧ a = some dir
  | flag, value, a => value = .bool a
  | policy, value, a => value = .string a.name ∨ value = .object [(a.name, .null)]

def Kind.decode? : (k : Kind) → Json → Option k.Value
  | text => string?
  | optionalText => optionalString?
  | flag => bool?
  | policy => CollisionPolicy.ofJson?

theorem string?_eq_some_iff {value : Json} {text : String} :
    string? value = some text ↔ value = .string text := by
  cases value <;> simp [string?]

theorem Kind.decode?_eq_some_iff {k : Kind} {value : Json} {a : k.Value} :
    k.decode? value = some a ↔ k.Denotes value a := by
  cases k with
  | text => exact string?_eq_some_iff
  | optionalText =>
      change optionalString? value = some a ↔ _
      cases value <;> simp [optionalString?, string?, Denotes, eq_comm]
  | flag =>
      change bool? value = some a ↔ _
      cases value <;> simp [bool?, Denotes]
  | policy => exact CollisionPolicy.ofJson?_eq_some_iff

inductive Field where
  | srcDir
  | outDir
  | runtimeModule
  | opaqueType
  | requireLocale
  | strictSyntax
  | collisions
  | omitEmptyShapes

namespace Field

def name : Field → String
  | srcDir => "srcDir"
  | outDir => "outDir"
  | runtimeModule => "runtimeModule"
  | opaqueType => "opaqueType"
  | requireLocale => "requireLocale"
  | strictSyntax => "strictSyntax"
  | collisions => "collisions"
  | omitEmptyShapes => "omitEmptyShapes"

def kind : Field → Kind
  | srcDir | runtimeModule | opaqueType => .text
  | outDir => .optionalText
  | requireLocale | strictSyntax | omitEmptyShapes => .flag
  | collisions => .policy

def get : (f : Field) → Config → f.kind.Value
  | srcDir, c => c.srcDir
  | outDir, c => c.outDir
  | runtimeModule, c => c.runtimeModule
  | opaqueType, c => c.opaqueType
  | requireLocale, c => c.requireLocale
  | strictSyntax, c => c.strictSyntax
  | collisions, c => c.collisions
  | omitEmptyShapes, c => c.omitEmptyShapes

/-- The value of a field for which these values are given. -/
def read? (f : Field) (values : List Json) : Option f.kind.Value :=
  field? f.kind.decode? (f.get default) values

variable {f : Field} {values : List Json} {a : f.kind.Value}

theorem read?_eq_some_iff : f.read? values = some a ↔
    values = [] ∧ a = f.get default ∨ ∃ value, values = [value] ∧ f.kind.Denotes value a := by
  unfold read? field?
  split
  · simp [eq_comm]
  · simp [Kind.decode?_eq_some_iff]
  · rename_i hnil hsingle
    constructor
    · rintro ⟨⟩
    · rintro (⟨rfl, -⟩ | ⟨value, rfl, -⟩)
      · exact absurd rfl hnil
      · exact absurd rfl (hsingle value)

theorem exists_read?_iff : (∃ a, f.read? values = some a) ↔
    values.length ≤ 1 ∧ ∀ value ∈ values, ∃ a, f.kind.Denotes value a := by
  simp only [read?_eq_some_iff]
  match values with
  | [] => simp
  | [value] => simp
  | value :: next :: rest => simp

/-- The order of the values does not matter, since two are too many. -/
theorem read?_of_perm {values' : List Json} (h : values.Perm values') :
    f.read? values = f.read? values' := by
  match values with
  | [] => rw [h.nil_eq]
  | [value] => rw [List.singleton_perm.mp h]
  | value :: next :: rest =>
      match values', h.length_eq with
      | value' :: next' :: rest', _ => rfl

end Field

/-- A configuration with these values of its fields. -/
def ofFields (a : (f : Field) → f.kind.Value) : Config :=
  ⟨a .srcDir, a .outDir, a .runtimeModule, a .opaqueType, a .requireLocale, a .strictSyntax,
    a .collisions, a .omitEmptyShapes⟩

theorem Field.get_ofFields (a : (f : Field) → f.kind.Value) (f : Field) :
    f.get (ofFields a) = a f := by
  cases f <;> rfl

variable {c : Config}

/-- Every field is read on its own.  A field that is not given has the value that it has in the
default configuration, though the reader does not take it from there. -/
theorem ofValues?_eq_some_iff {values : String → List Json} :
    (ofValues? fun name _ ↦ values name) = some c ↔
      ∀ f : Field, f.read? (values f.name) = some (f.get c) := by
  constructor
  · intro h
    simp only [ofValues?, bind, pure, Option.bind_eq_some_iff, Option.some.injEq] at h
    obtain ⟨_, hsrc, _, hout, _, hmodule, _, htype, _, hlocale, _, hstrict, _, hpolicy, _, hshapes,
      rfl⟩ := h
    intro f
    cases f <;> assumption
  · intro h
    have hsrc : field? string? "src" (values "srcDir") = some c.srcDir := h .srcDir
    have hout : field? optionalString? none (values "outDir") = some c.outDir := h .outDir
    have hmodule : field? string? "@fluent/bundle" (values "runtimeModule") = some c.runtimeModule :=
      h .runtimeModule
    have htype : field? string? "FluentVariable" (values "opaqueType") = some c.opaqueType :=
      h .opaqueType
    have hlocale : field? bool? false (values "requireLocale") = some c.requireLocale :=
      h .requireLocale
    have hstrict : field? bool? true (values "strictSyntax") = some c.strictSyntax :=
      h .strictSyntax
    have hpolicy : field? CollisionPolicy.ofJson? .lastWriteWins (values "collisions") =
        some c.collisions := h .collisions
    have hshapes : field? bool? false (values "omitEmptyShapes") = some c.omitEmptyShapes :=
      h .omitEmptyShapes
    simp [ofValues?, hsrc, hout, hmodule, htype, hlocale, hstrict, hpolicy, hshapes]

/-! ## Members -/

section Members

variable {members members' : List (Option String × Json)} {name : String}

/-- The values of the members of a name. -/
def given (members : List (Option String × Json)) (name : String) : List Json :=
  (members.filter (·.1 = some name)).map Prod.snd

theorem mem_given_iff {value : Json} : value ∈ given members name ↔ (some name, value) ∈ members := by
  simp [given]

theorem length_given : (given members name).length = (members.map Prod.fst).count (some name) := by
  rw [given, List.length_map, ← List.countP_eq_length_filter, List.count, List.countP_map]
  exact List.countP_congr fun m _ ↦ by simp

theorem given_map_some (ms : List (String × Json)) :
    given (ms.map fun m ↦ (some m.1, m.2)) name = valuesOf ms name := by
  simp [given, valuesOf, List.filter_map, Function.comp_def]

/-- A member with a name that no field has. -/
def IsUnknown (m : Option String × Json) : Prop :=
  ∃ name, m.1 = some name ∧ ∀ f : Field, f.name ≠ name

theorem IsUnknown.given_cons {m : Option String × Json} (h : IsUnknown m) (f : Field) :
    given (m :: members) f.name = given members f.name := by
  obtain ⟨name, hname, hne⟩ := h
  have hm : m.1 ≠ some f.name := by
    rw [hname]
    exact fun heq ↦ hne f (Option.some.inj heq).symm
  simp [given, hm]

/-- Members are put in another order, and unknown ones are added or removed. -/
inductive Alike : List (Option String × Json) → List (Option String × Json) → Prop
  | perm {members members' : List (Option String × Json)} : members.Perm members' →
      Alike members members'
  | unknown {m : Option String × Json} (members : List (Option String × Json)) : IsUnknown m →
      Alike (m :: members) members
  | symm {members members' : List (Option String × Json)} : Alike members members' →
      Alike members' members
  | trans {a b c : List (Option String × Json)} : Alike a b → Alike b c → Alike a c

def ofMembers? (members : List (Option String × Json)) : Option Config :=
  ofJson? ((Json.named? members).elim .unpaired .object)

theorem ofMembers?_eq_some_iff : ofMembers? members = some c ↔
    (∀ m ∈ members, m.1 ≠ none) ∧ ∀ f : Field, f.read? (given members f.name) = some (f.get c) := by
  by_cases hnames : ∀ m ∈ members, m.1 ≠ none
  · obtain ⟨ms, rfl⟩ := Json.exists_map_some hnames
    rw [ofMembers?, Json.named?_map_some, and_iff_right hnames]
    simp only [given_map_some]
    exact ofValues?_eq_some_iff
  · rw [iff_false_right fun h ↦ hnames h.1]
    push Not at hnames
    obtain ⟨m, hm, hnone⟩ := hnames
    rw [ofMembers?, Json.named?_eq_none hm hnone]
    rintro ⟨⟩

theorem exists_ofMembers?_iff : (∃ c, ofMembers? members = some c) ↔
    (∀ m ∈ members, m.1 ≠ none) ∧ ∀ f : Field, ∃ a, f.read? (given members f.name) = some a := by
  simp only [ofMembers?_eq_some_iff]
  constructor
  · rintro ⟨c, hnames, h⟩
    exact ⟨hnames, fun f ↦ ⟨f.get c, h f⟩⟩
  · rintro ⟨hnames, h⟩
    choose a ha using h
    refine ⟨ofFields a, hnames, fun f ↦ ?_⟩
    rw [f.get_ofFields]
    exact ha f

theorem Alike.ofMembers?_eq (h : Alike members members') :
    ofMembers? members = ofMembers? members' := by
  induction h with
  | @perm members members' h =>
      ext c
      have hgiven : ∀ f : Field, f.read? (given members f.name) = f.read? (given members' f.name) :=
        fun f ↦ f.read?_of_perm ((h.filter _).map _)
      simp only [ofMembers?_eq_some_iff, h.mem_iff, hgiven]
  | unknown members hm =>
      ext c
      have ⟨name, hname, _⟩ := hm
      simp [ofMembers?_eq_some_iff, hm.given_cons, hname]
  | symm _ ih => exact ih.symm
  | trans _ _ ih ih' => exact ih.trans ih'

end Members

/-! ## Files -/

section Load

variable {t : FileTree} {root : String} {members : List (Option String × Json)}

/-- The configuration file has the text of an object with these members. -/
def HoldsObject (t : FileTree) (root : String) (members : List (Option String × Json)) : Prop :=
  ∃ text, t.read (Path.join root fileName) = .ok text ∧ Json.IsObjectText text members

theorem load_of_holdsObject (h : HoldsObject t root members) :
    load t root = (ofMembers? members).elim (.error .invalidConfig) .ok := by
  obtain ⟨text, hread, htext⟩ := h
  have hparse : parse? text = ofMembers? members := by
    rw [parse?, htext.parse?_eq]
    rfl
  unfold load
  dsimp only
  rw [FileTree.pathExists_of_read hread, if_pos rfl, hread]
  simp only [Except.mapError, bind, Except.bind, hparse]
  cases ofMembers? members <;> rfl

theorem load_eq_ok_iff_of_holdsObject (h : HoldsObject t root members) :
    load t root = .ok c ↔ ofMembers? members = some c := by
  rw [load_of_holdsObject h]
  cases ofMembers? members <;> simp

theorem load_of_missing (h : t.pathExists (Path.join root fileName) = false) :
    load t root = .ok default :=
  load_eq_ok_iff.mpr (.inl ⟨by simpa [FileTree.pathExists] using h, rfl⟩)

end Load

/-! ## A project with a configuration -/

/-- A project with one file, which has its configuration. -/
def configured (text : String) : FileTree := FileTree.place ∅ ["p", fileName] text

theorem holdsObject_configured {text : String} {s : List Char}
    {members : List (Option String × Json)} (h : Json.Spells s (.object members))
    (htext : text.toList = s) : HoldsObject (configured text) "p" members := by
  refine ⟨text, rfl, [], s, [], ?_, Json.blanks_nil, h, Json.blanks_nil⟩
  rw [htext, List.nil_append, List.append_nil]

/-- The unknown member has a number with all its parts and a name that is no text, further inside. -/
def nestedText : String :=
  "\x7b\"x\":[-0.5e+3,\x7b\"\\udc00\":\"y\"\x7d],\"outDir\":null,\"requireLocale\":true\x7d"

def nestedMembers : List (Option String × Json) :=
  [(some "x", .array [.number "-0.5e+3", .unpaired]), (some "outDir", .null),
    (some "requireLocale", .bool true)]

theorem spells_member (name : String) {s : List Char} {v : Json} (h : Json.Spells s (.value v)) :
    Json.Spells (Json.writeString name ++ ':' :: s) (.member (some name) v) :=
  .member Json.blanks_nil (Json.spellsString_writeString name) Json.blanks_nil (.bare h)

theorem holdsObject_nested : HoldsObject (configured nestedText) "p" nestedMembers := by
  have hfive : Json.Digits ['5'] := ⟨by simp, by simp⟩
  have hthree : Json.Digits ['3'] := ⟨by simp, by simp⟩
  have hnumber : Json.Spells "-0.5e+3".toList (.value (.number "-0.5e+3")) :=
    .number (.mk (.inr rfl) (.inl rfl) (.inr ⟨['5'], rfl, hfive⟩)
      (.inr ⟨'e', ['+'], ['3'], rfl, .inl rfl, .inr (.inl rfl), hthree⟩))
  have hcode : Json.hexCode? 'd' 'c' '0' '0' = some 0xDC00 := rfl
  have hname : Json.SpellsString ['"', '\\', 'u', 'd', 'c', '0', '0', '"'] none :=
    .mk (.code hcode .nil)
  have hunpaired : Json.Spells _ (.value .unpaired) := .object (.someMembers (.lastMember
    (.member Json.blanks_nil hname Json.blanks_nil
      (.bare (.string (Json.spellsString_writeString "y"))))))
  have hunknown := Json.Spells.array (.elements (.bare hnumber) (.lastElement (.bare hunpaired)))
  refine holdsObject_configured (.someMembers (.members (spells_member "x" hunknown)
    (.members (spells_member "outDir" .null)
      (.lastMember (spells_member "requireLocale" (.bool true)))))) ?_
  decide +kernel

theorem holdsObject_rearranged :
    HoldsObject (configured "\x7b\"requireLocale\":true,\"outDir\":null\x7d") "p"
      [(some "requireLocale", .bool true), (some "outDir", .null)] := by
  refine holdsObject_configured (.someMembers (.members (spells_member "requireLocale" (.bool true))
    (.lastMember (spells_member "outDir" .null)))) ?_
  decide +kernel

end Config

/-- A file with an object is loaded if the names of its members are texts and every field is given at
most once, by a value of its kind.  Then the fields that are given have these values and the others
have their defaults.  So neither the order of the members nor unknown members make a difference, and
with no members at all everything is as if there were no file. -/
theorem Config.load_overrides_defaults :
    (∀ (t : FileTree) (root : String) (members : List (Option String × Json)),
      HoldsObject t root members →
      ((∃ c, load t root = .ok c) ↔ (∀ m ∈ members, m.1 ≠ none) ∧
        ∀ f : Field, (members.map Prod.fst).count (some f.name) ≤ 1 ∧
          ∀ value, (some f.name, value) ∈ members → ∃ a, f.kind.Denotes value a) ∧
      ∀ c, load t root = .ok c → ∀ f : Field,
        (∀ value, (some f.name, value) ∈ members → f.kind.Denotes value (f.get c)) ∧
          ((∀ value, (some f.name, value) ∉ members) → f.get c = f.get default)) ∧
    (∀ (t t' : FileTree) (root root' : String) (members members' : List (Option String × Json)),
      HoldsObject t root members → HoldsObject t' root' members' → Alike members members' →
      load t root = load t' root') ∧
    ∀ (t t' : FileTree) (root root' : String),
      t.read (Path.join root fileName) = .ok "\x7b\x7d" →
      t'.pathExists (Path.join root' fileName) = false → load t root = load t' root' := by
  refine ⟨fun t root members h ↦ ⟨?_, fun c hload f ↦ ?_⟩,
    fun t t' root root' members members' h h' halike ↦ ?_, fun t t' root root' hread hmissing ↦ ?_⟩
  · simp only [load_eq_ok_iff_of_holdsObject h, exists_ofMembers?_iff, Field.exists_read?_iff,
      length_given, mem_given_iff]
  · have hfield := (ofMembers?_eq_some_iff.mp ((load_eq_ok_iff_of_holdsObject h).mp hload)).2 f
    simp only [← mem_given_iff]
    rcases Field.read?_eq_some_iff.mp hfield with ⟨hgiven, hdefault⟩ | ⟨value, hgiven, hdenotes⟩
    · rw [hgiven]
      exact ⟨by rintro value ⟨⟩, fun _ ↦ hdefault⟩
    · rw [hgiven]
      refine ⟨fun value' hvalue ↦ ?_, fun hnone ↦ absurd List.mem_cons_self (hnone value)⟩
      rwa [List.mem_singleton.mp hvalue]
  · rw [load_of_holdsObject h, load_of_holdsObject h', halike.ofMembers?_eq]
  · rw [load_of_missing hmissing]
    have hobject : HoldsObject t root [] := ⟨_, hread, [], _, [], rfl, Json.blanks_nil,
      .noMembers Json.blanks_nil, Json.blanks_nil⟩
    rw [load_eq_ok_iff_of_holdsObject hobject, ofMembers?_eq_some_iff]
    exact ⟨by rintro m ⟨⟩, fun f ↦ rfl⟩

theorem Config.load_overrides_defaults_nested :
    (∃ c, load (configured nestedText) "p" = .ok c ∧ c.requireLocale = true ∧ c.outDir = none ∧
        c.srcDir = default.srcDir) ∧
      load (configured nestedText) "p" =
        load (configured "\x7b\"requireLocale\":true,\"outDir\":null\x7d") "p" ∧
      load (configured "\x7b\x7d") "p" = load ∅ "p" := by
  obtain ⟨hfields, halike, hempty⟩ := load_overrides_defaults
  obtain ⟨hloads, hget⟩ := hfields _ _ _ holdsObject_nested
  refine ⟨?_, halike _ _ _ _ _ _ holdsObject_nested holdsObject_rearranged ?_,
    hempty _ _ _ _ (by decide +kernel) (by decide +kernel)⟩
  · obtain ⟨c, hc⟩ := hloads.mpr ⟨by simp [nestedMembers], fun f ↦ by
      cases f <;> simp [nestedMembers, Field.name, Field.kind, Kind.Denotes]⟩
    refine ⟨c, hc, ?_, ?_, (hget c hc .srcDir).2 (by simp [nestedMembers, Field.name])⟩
    · have hlocale := (hget c hc .requireLocale).1 (.bool true) (by simp [nestedMembers, Field.name])
      exact (Json.bool.inj hlocale).symm
    · rcases (hget c hc .outDir).1 .null (by simp [nestedMembers, Field.name]) with
        ⟨-, hout⟩ | ⟨dir, hdir, -⟩
      · exact hout
      · cases hdir
  · refine .trans (.unknown _ ⟨"x", rfl, ?_⟩) (.perm (.swap _ _ _))
    intro f
    cases f <;> decide

/-- Half of a surrogate pair in the name of a member keeps the file from being loaded, even though
no field is given. -/
theorem Config.load_unpaired_name :
    ∃ members, HoldsObject (configured "\x7b\"\\ud800\":null\x7d") "p" members ∧
      (∀ (f : Field) (value : Json), (some f.name, value) ∉ members) ∧
      load (configured "\x7b\"\\ud800\":null\x7d") "p" = .error .invalidConfig := by
  have hcode : Json.hexCode? 'd' '8' '0' '0' = some 0xD800 := rfl
  have hname : Json.SpellsString ['"', '\\', 'u', 'd', '8', '0', '0', '"'] none :=
    .mk (.code hcode .nil)
  have hobject : HoldsObject (configured "\x7b\"\\ud800\":null\x7d") "p" [(none, .null)] :=
    holdsObject_configured (.someMembers (.lastMember
      (.member Json.blanks_nil hname Json.blanks_nil (.bare .null)))) (by decide +kernel)
  refine ⟨[(none, .null)], hobject, by simp, ?_⟩
  rw [load_of_holdsObject hobject]
  rfl

end FluentShapes

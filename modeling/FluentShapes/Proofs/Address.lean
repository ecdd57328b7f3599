import FluentShapes.Proofs.Junk
import FluentShapes.Proofs.Policy
import Mathlib.Data.List.Count
import Mathlib.Data.List.TakeWhile

/-!
# Ids and what they stand for

An id is the address of a value or of an attribute, written in one string with a full stop.  In a
resource that was read from a source all names are identifiers (`named_of_parseLenient?`).  There is
no full stop in an identifier, so the string tells which address it is (`Address.id_injective`), and
an id is declared twice exactly if an address is.
-/

namespace FluentShapes

/-! ## Identifiers -/

namespace Token

/-- A letter, and behind it letters, digits, underscores and hyphens. -/
def IsIdentifier (name : String) : Prop :=
  ∃ c t, name.toList = c :: t ∧ c.isAlpha = true ∧ ∀ d ∈ t, isNameChar d = true

theorem isIdentifier_takeWhile {c : Char} (h : c.isAlpha = true) (t : List Char) :
    IsIdentifier (String.ofList (c :: t.takeWhile isNameChar)) :=
  ⟨c, t.takeWhile isNameChar, String.toList_ofList, h, fun _ hd ↦ List.mem_takeWhile_imp hd⟩

theorem IsIdentifier.stop_notMem {name : String} (h : IsIdentifier name) : '.' ∉ name.toList := by
  obtain ⟨c, t, hname, hc, ht⟩ := h
  rw [hname, List.mem_cons]
  rintro (rfl | hstop)
  · cases hc
  · cases ht '.' hstop

end Token

namespace Reading

variable {α β : Type} {s : List Char}

theorem Yields.andThen {P : α → Prop} {Q : β → Prop} {x : Reading s s α}
    {f : α → Rest s → Reading s s β} (hx : x.Yields P) (hf : ∀ a r, P a → (f a r).Yields Q) :
    (x.andThen f).Yields Q := by
  cases x with
  | accept a r => exact hf a r hx
  | reject _ _ | garbled => trivial

end Reading

open Token Reading

variable {s : List Char}

theorem Token.yields_identifier (r : Rest s) : (identifier r).Yields IsIdentifier := by
  unfold identifier
  split
  · split
    · exact isIdentifier_takeWhile ‹_› _
    · trivial
  · trivial

/-! ## Names of a resource that has been read -/

/-- The names that a message goes by are identifiers. -/
def Entry.Named : Entry → Prop
  | message name _ attributes _ => IsIdentifier name ∧ ∀ a ∈ attributes, IsIdentifier a.name
  | term .. | comment .. | junk _ => True

namespace Grammar

theorem yields_attributeField (s : List Char) :
    (attributeField s).Yields fun a ↦ IsIdentifier a.name := by
  refine (yields_identifier _).andThen fun name r hname ↦ ?_
  refine yields_andThen _ fun _ r ↦ yields_andThen _ fun value r ↦ ?_
  cases value with
  | none => trivial
  | some value => exact hname

theorem isIdentifier_of_attributes? {as : List Attribute} {r : Rest s}
    (h : attributes? s = some (as, r)) : ∀ a ∈ as, IsIdentifier a.name := by
  fun_induction attributes? s generalizing as with
  | case1 s t hstop hfield => cases h
  | case2 s t hstop fault q hfield =>
      cases h
      simp
  | case3 s t hstop a q hfield next =>
      rename_i ih
      obtain ⟨⟨as, r'⟩, hrest, heq⟩ := Option.map_eq_some_iff.mp h
      cases heq
      have ha := yields_attributeField t
      rw [hfield] at ha
      exact List.forall_mem_cons.mpr ⟨ha, ih hrest⟩
  | case4 s hstop =>
      cases h
      simp

theorem yields_fields (r : Rest s) :
    (fields r).Yields fun (_, attributes) ↦ ∀ a ∈ attributes, IsIdentifier a.name := by
  refine yields_andThen _ fun value r ↦ ?_
  split
  · trivial
  · exact isIdentifier_of_attributes? ‹_›

theorem named_message {name : String} (h : IsIdentifier name) (r : Rest s) :
    (message name r).Yields Entry.Named := by
  refine yields_andThen _ fun _ r ↦ (yields_fields r).andThen ?_
  rintro ⟨value, attributes⟩ r hattributes
  dsimp only
  split
  · trivial
  · exact ⟨h, hattributes⟩

theorem named_entry (c : Char) (t : List Char) : (entry c t).Yields Entry.Named := by
  unfold entry
  split
  · exact yields_comment (fun _ _ ↦ trivial) t
  · split
    · exact yields_term (fun _ _ _ ↦ trivial) t
    · split
      · exact named_message (isIdentifier_takeWhile ‹_› t) _
      · trivial

end Grammar

namespace Resource

/-- Comments have no names, and taking one along does not change the names of an entry. -/
theorem named_attach (held : Option Comment) (blankLines : Nat) {e : Entry} (h : e.Named) :
    ∀ e' ∈ (attach held blankLines e).1, e'.Named := by
  have hbefore : ∀ e' ∈ held.toList.map (Entry.comment .entry), e'.Named := by
    intro e' he'
    obtain ⟨lines, -, rfl⟩ := List.mem_map.mp he'
    trivial
  unfold attach
  dsimp only
  split
  · rename_i e' he'
    obtain ⟨lines, -, hlines⟩ := Option.bind_eq_some_iff.mp he'
    rw [List.forall_mem_singleton]
    split at hlines
    · cases e <;> cases hlines <;> exact h
    · cases hlines
  · split
    · exact hbefore
    · exact List.forall_mem_append.mpr ⟨hbefore, List.forall_mem_singleton.mpr h⟩

/-- Each entry is read by itself, so what holds of one reading holds of all of them. -/
theorem named_entries {offset : Nat} {held : Option Comment} {blankLines : Nat} {s : List Char}
    {p : Recovered} (h : entries offset held blankLines s = some p) : ∀ e ∈ p.body, e.Named := by
  induction offset, held, blankLines, s using entries.induct generalizing p with
  | case1 offset held blankLines =>
      rw [entries] at h
      cases h
      simp [Entry.Named]
  | case2 offset held blankLines c t hentry =>
      rw [entries, hentry] at h
      cases h
  | case3 offset held blankLines c t e r hentry front held' hattach next =>
      rename_i ih
      rw [entries, hentry] at h
      simp only [hattach, Option.map_eq_some_iff] at h
      obtain ⟨p, hp, rfl⟩ := h
      have he := Grammar.named_entry c t
      rw [hentry] at he
      have hfront := named_attach held blankLines he
      rw [hattach] at hfront
      exact List.forall_mem_append.mpr ⟨hfront, ih hp⟩
  | case4 offset held blankLines c t fault r hentry junk content front held' hattach next =>
      rename_i ih
      rw [entries, hentry] at h
      simp only [junk, content] at hattach
      simp only [hattach, Option.map_eq_some_iff] at h
      obtain ⟨p, hp, rfl⟩ := h
      have hfront := named_attach held blankLines (e := .junk (String.ofList content)) trivial
      rw [hattach] at hfront
      exact List.forall_mem_append.mpr ⟨hfront, ih hp⟩

theorem named_of_parseLenient? {source : String} {p : Parsed} (h : parseLenient? source = some p) :
    ∀ e ∈ p.body, e.Named := by
  rw [parseLenient?_eq] at h
  obtain ⟨q, hq, rfl⟩ := Option.map_eq_some_iff.mp h
  exact named_entries hq

end Resource

/-! ## Addresses -/

/-- What an id is declared for: the value of a message, or an attribute of it. -/
inductive Address where
  | value (message : String)
  | part (message name : String)
deriving DecidableEq

namespace Address

def id : Address → String
  | value message => message
  | part message name => message ++ "." ++ name

/-- The names in an address are identifiers. -/
def Named : Address → Prop
  | value message => IsIdentifier message
  | part message name => IsIdentifier message ∧ IsIdentifier name

theorem id_part_toList (message name : String) :
    (part message name).id.toList = message.toList ++ '.' :: name.toList := by
  simp [id]

/-- There is a full stop in the id of an attribute, and there is one only. -/
theorem id_injective {a b : Address} (ha : a.Named) (hb : b.Named) (h : a.id = b.id) : a = b := by
  have hstop (message message' name : String) (hmessage : IsIdentifier message) :
      message ≠ (part message' name).id := by
    rintro rfl
    exact hmessage.stop_notMem (by simp [id_part_toList])
  cases a with
  | value message =>
      cases b with
      | value message' => exact congrArg value h
      | part message' name => exact absurd h (hstop message message' name ha)
  | part message name =>
      cases b with
      | value message' => exact absurd h.symm (hstop message' message name hb)
      | part message' name' =>
          rw [← String.toList_inj, id_part_toList, id_part_toList,
            List.append_cons_inj_of_notMem ha.1.stop_notMem ha.2.stop_notMem] at h
          rw [String.toList_inj.mp h.1, String.toList_inj.mp h.2.2]

end Address

/-- The addresses that an entry declares. -/
def Entry.addresses : Entry → List Address
  | message name value attributes _ =>
      value.toList.map (fun _ ↦ .value name) ++ attributes.map fun a ↦ .part name a.name
  | term .. | comment .. | junk _ => []

theorem Entry.Named.addresses {e : Entry} (h : e.Named) : ∀ a ∈ e.addresses, a.Named := by
  cases e with
  | message name value attributes comment =>
      refine List.forall_mem_append.mpr ⟨fun a ha ↦ ?_, fun a ha ↦ ?_⟩
      · obtain ⟨_, -, rfl⟩ := List.mem_map.mp ha
        exact h.1
      · obtain ⟨attr, hattr, rfl⟩ := List.mem_map.mp ha
        exact ⟨h.1, h.2 attr hattr⟩
  | term _ _ _ _ | comment _ _ | junk _ => simp [Entry.addresses]

/-- Whether an entry is a message of this name with a value. -/
def Entry.hasValue (name : String) : Entry → Bool
  | message name' value _ _ => name' = name && value.isSome
  | term .. | comment .. | junk _ => false

/-- The names of the attributes of an entry, if it is a message of this name. -/
def Entry.attributeNames (name : String) : Entry → List String
  | message name' _ attributes _ => if name' = name then attributes.map Attribute.name else []
  | term .. | comment .. | junk _ => []

theorem Entry.count_value (name : String) (e : Entry) :
    e.addresses.count (.value name) = if e.hasValue name then 1 else 0 := by
  cases e with
  | message name' value attributes comment =>
      have hparts : (attributes.map fun a ↦ Address.part name' a.name).count (.value name) = 0 := by
        rw [List.count_eq_zero]
        simp
      rw [addresses, List.count_append, hparts, Nat.add_zero]
      cases value with
      | none => simp [hasValue]
      | some value => simp [hasValue, List.count_singleton]
  | term _ _ _ _ | comment _ _ | junk _ => rfl

theorem Entry.count_part (name attr : String) (e : Entry) :
    e.addresses.count (.part name attr) = (e.attributeNames name).count attr := by
  cases e with
  | message name' value attributes comment =>
      have hvalue : (value.toList.map fun _ ↦ Address.value name').count (.part name attr) = 0 := by
        rw [List.count_eq_zero]
        simp
      have hparts : (attributes.map fun a ↦ Address.part name' a.name) =
          (attributes.map Attribute.name).map (.part name') := List.map_map.symm
      rw [addresses, List.count_append, hvalue, Nat.zero_add, hparts, attributeNames]
      split
      · subst name'
        exact List.count_map_of_injective _ _ (fun _ _ h ↦ (Address.part.inj h).2) attr
      · rw [List.count_nil, List.count_eq_zero]
        simp_all
  | term _ _ _ _ | comment _ _ | junk _ => rfl

namespace Resource

def addresses (r : Resource) : List Address := r.flatMap Entry.addresses

/-- Two messages of one name have a value, or an attribute name comes twice among the attributes of
the messages of one name. -/
def Redeclares (r : Resource) : Prop :=
  ∃ name, 1 < r.countP (Entry.hasValue name) ∨ ¬ (r.flatMap (Entry.attributeNames name)).Nodup

theorem addresses_cons (e : Entry) (r : Resource) :
    addresses (e :: r) = e.addresses ++ r.addresses := List.flatMap_cons

theorem map_id_addresses (r : Resource) :
    r.addresses.map Address.id = r.declarations.map Prod.fst := by
  induction r with
  | nil => rfl
  | cons e r ih =>
      rw [addresses_cons, declarations_cons, List.map_append, List.map_append, ih]
      cases e with
      | message name value attributes comment =>
          simp [Entry.addresses, Entry.declarations, Address.id, Function.comp_def]
      | term _ _ _ _ | comment _ _ | junk _ => rfl

theorem count_value (name : String) (r : Resource) :
    r.addresses.count (.value name) = r.countP (Entry.hasValue name) := by
  induction r with
  | nil => rfl
  | cons e r ih =>
      rw [addresses_cons, List.count_append, ih, Entry.count_value, List.countP_cons, Nat.add_comm]

theorem count_part (name attr : String) (r : Resource) :
    r.addresses.count (.part name attr) = (r.flatMap (Entry.attributeNames name)).count attr := by
  induction r with
  | nil => rfl
  | cons e r ih =>
      rw [addresses_cons, List.count_append, ih, Entry.count_part, List.flatMap_cons,
        List.count_append]

/-- No address is declared twice. -/
theorem nodup_addresses_iff (r : Resource) : r.addresses.Nodup ↔ ¬ r.Redeclares := by
  have hparts (name : String) : (r.flatMap (Entry.attributeNames name)).Nodup ↔
      ∀ attr, r.addresses.count (.part name attr) ≤ 1 := by
    simp only [List.nodup_iff_count_le_one, count_part]
  rw [List.nodup_iff_count_le_one]
  constructor
  · rintro h ⟨name, hvalue | hpart⟩
    · rw [← count_value] at hvalue
      exact absurd (h (.value name)) (Nat.not_le.mpr hvalue)
    · exact hpart ((hparts name).mpr fun attr ↦ h (.part name attr))
  · intro h a
    by_contra hcount
    cases a with
    | value name =>
        rw [count_value, Nat.not_le] at hcount
        exact h ⟨name, .inl hcount⟩
    | part name attr => exact h ⟨name, .inr fun hnodup ↦ hcount ((hparts name).mp hnodup attr)⟩

theorem named_addresses {r : Resource} (h : ∀ e ∈ r, e.Named) : ∀ a ∈ r.addresses, a.Named := by
  intro a ha
  obtain ⟨e, he, ha⟩ := List.mem_flatMap.mp ha
  exact (h e he).addresses a ha

/-- In a resource of identifiers an id stands for one address. -/
theorem id_injOn_addresses {r : Resource} (h : ∀ e ∈ r, e.Named) :
    ∀ a ∈ r.addresses, ∀ b ∈ r.addresses, a.id = b.id → a = b := fun a ha b hb ↦
  Address.id_injective (named_addresses h a ha) (named_addresses h b hb)

theorem nodup_ids_iff {r : Resource} (h : ∀ e ∈ r, e.Named) :
    (r.declarations.map Prod.fst).Nodup ↔ ¬ r.Redeclares := by
  rw [← map_id_addresses, ← nodup_addresses_iff]
  exact ⟨List.Nodup.of_map _, List.Nodup.map_on (id_injOn_addresses h)⟩

/-- A source is read strictly as it is read leniently, if at all. -/
theorem named_of_parse {source : String} {body : Resource}
    (h : parse? source = some (.ok body) ∨ (parseLenient? source).map Parsed.body = some body) :
    ∀ e ∈ body, e.Named := by
  cases hlenient : parseLenient? source with
  | none => simp [parse?_eq, hlenient] at h
  | some p =>
      have hbody : body = p.body := by
        rcases h with hstrict | hlenient'
        · exact ((parse?_eq_ok_iff hlenient body).mp hstrict).2
        · rw [hlenient, Option.map_some] at hlenient'
          exact (Option.some.inj hlenient').symm
      rw [hbody]
      exact named_of_parseLenient? hlenient

end Resource

namespace Index

theorem ofResource_reject_eq_error_iff (omitEmptyShapes : Bool) (r : Resource) :
    (∃ c, ofResource ⟨.reject, omitEmptyShapes⟩ r = .error c) ↔
      ¬ (r.declarations.map Prod.fst).Nodup := by
  rcases ofResource_reject_cases omitEmptyShapes r with
    ⟨hnodup, i, hi, -⟩ | ⟨hrepeat, before, id, after, -, -, -, herror⟩
  · refine iff_of_false ?_ (not_not_intro hnodup)
    rintro ⟨c, hc⟩
    rw [hi] at hc
    cases hc
  · exact iff_of_true ⟨_, herror⟩ hrepeat

/-- In a resource that was read from a source, every id stands for one address: the id of a value is
never that of an attribute, and two attributes have one id only if both their messages and they
themselves have the same name.  So a declaration is rejected exactly if the resource declares one
address twice. -/
theorem reject_iff_redeclares (omitEmptyShapes : Bool) {source : String} {body : Resource}
    (h : Resource.parse? source = some (.ok body) ∨
      (Resource.parseLenient? source).map Parsed.body = some body) :
    ((∃ c, ofResource ⟨.reject, omitEmptyShapes⟩ body = .error c) ↔ body.Redeclares) ∧
      body.declarations.map Prod.fst = body.addresses.map Address.id ∧
      ∀ a ∈ body.addresses, ∀ b ∈ body.addresses, a.id = b.id → a = b := by
  have hnamed := Resource.named_of_parse h
  refine ⟨?_, body.map_id_addresses.symm, Resource.id_injOn_addresses hnamed⟩
  rw [ofResource_reject_eq_error_iff, Resource.nodup_ids_iff hnamed, not_not]

/-- The second message has no value of its own, but an attribute that the first one has. -/
theorem reject_iff_redeclares_attribute :
    ∃ body, (Resource.parseLenient? "a = A\n .x = X\na =\n .x = Y\n").map Parsed.body = some body ∧
      body.addresses = [.value "a", .part "a" "x", .part "a" "x"] ∧
      ∃ c, ofResource ⟨.reject, false⟩ body = .error c := by
  have hread : (Resource.parseLenient? "a = A\n .x = X\na =\n .x = Y\n").map
      (fun p ↦ p.body.addresses) =
        some [.value "a", .part "a" "x", .part "a" "x"] := by decide +kernel
  obtain ⟨p, hp, haddresses⟩ := Option.map_eq_some_iff.mp hread
  have hbody := congrArg (Option.map Parsed.body) hp
  refine ⟨p.body, hbody, haddresses, (reject_iff_redeclares false (.inr hbody)).1.mpr ?_⟩
  by_contra hredeclares
  rw [← Resource.nodup_addresses_iff, haddresses] at hredeclares
  exact absurd hredeclares (by decide)

end Index

end FluentShapes

import FluentShapes.Index.Basic
import FluentShapes.Proofs.Insertion
import Mathlib.Logic.Basic

/-!
# The index of a resource

A resource declares ids one after another, and its index is built in one pass over them.  Where an
id may be declared again, the pass is a run of insertions, so an id stands where it was declared
first and has the entry of where it was declared last.  The ids with arguments and the ids without
split the index between them (`Index.SplitInto`).
-/

namespace FluentShapes

/-! ## What is declared -/

theorem Entry.declarations_of_isMessage_false {e : Entry} (h : e.isMessage = false) :
    e.declarations = [] := by
  cases e with
  | message name value attributes comment => cases h
  | term _ _ _ _ | comment _ _ | junk _ => rfl

namespace Resource

/-- The messages of a resource declare the ids of a list in this order, each with its pattern.  A
message declares its own name only if it has a value; all other entries declare nothing. -/
inductive Declares : Resource → List (String × Pattern) → Prop
  | nil : Declares [] []
  | valued {r : Resource} {ds : List (String × Pattern)} (name : String) (value : Pattern)
      (attributes : List Attribute) (comment : Option Comment) : Declares r ds →
      Declares (.message name (some value) attributes comment :: r)
        ((name, value) :: (attributes.map fun a ↦ (name ++ "." ++ a.name, a.value)) ++ ds)
  | unvalued {r : Resource} {ds : List (String × Pattern)} (name : String)
      (attributes : List Attribute) (comment : Option Comment) : Declares r ds →
      Declares (.message name none attributes comment :: r)
        ((attributes.map fun a ↦ (name ++ "." ++ a.name, a.value)) ++ ds)
  | skipped {r : Resource} {ds : List (String × Pattern)} {e : Entry} : e.isMessage = false →
      Declares r ds → Declares (e :: r) ds

theorem declarations_cons (e : Entry) (r : Resource) :
    declarations (e :: r) = e.declarations ++ r.declarations := List.flatMap_cons

theorem declares_declarations (r : Resource) : r.Declares r.declarations := by
  induction r with
  | nil => exact .nil
  | cons e r ih =>
      rw [declarations_cons]
      cases e with
      | message name value attributes comment =>
          cases value with
          | none => exact .unvalued name attributes comment ih
          | some value => exact .valued name value attributes comment ih
      | term _ _ _ _ | comment _ _ | junk _ => exact .skipped rfl ih

theorem Declares.eq_declarations {r : Resource} {ds : List (String × Pattern)}
    (h : r.Declares ds) : ds = r.declarations := by
  induction h with
  | nil => rfl
  | valued name value attributes comment _ ih => rw [declarations_cons, ih]; rfl
  | unvalued name attributes comment _ ih => rw [declarations_cons, ih]; rfl
  | skipped he _ ih =>
      rw [declarations_cons, Entry.declarations_of_isMessage_false he, ih, List.nil_append]

theorem declares_iff (r : Resource) (ds : List (String × Pattern)) :
    r.Declares ds ↔ ds = r.declarations := by
  constructor
  · exact Declares.eq_declarations
  · rintro rfl
    exact r.declares_declarations

theorem declarations_filter_isMessage (r : Resource) :
    declarations (r.filter Entry.isMessage) = r.declarations := by
  induction r with
  | nil => rfl
  | cons e r ih =>
      rw [declarations_cons]
      by_cases he : e.isMessage
      · rw [List.filter_cons_of_pos he, declarations_cons, ih]
      · rw [List.filter_cons_of_neg he, ih,
          Entry.declarations_of_isMessage_false (Bool.eq_false_iff.mpr he), List.nil_append]

end Resource

namespace Index

/-! ## Ids with and without arguments -/

theorem mem_argumentIds_iff (i : Index) (id : String) (s : Shape) :
    (id, s) ∈ i.argumentIds ↔ i.get? id = some (some s) := by
  rw [← Table.mem_entries_iff, argumentIds, List.mem_filterMap]
  constructor
  · rintro ⟨⟨id', entry⟩, hmem, h⟩
    cases entry with
    | none => cases h
    | some shape =>
        cases h
        exact hmem
  · intro h
    exact ⟨_, h, rfl⟩

theorem mem_noArgumentIds_iff (i : Index) (id : String) :
    id ∈ i.noArgumentIds ↔ i.get? id = some none := by
  rw [← Table.mem_entries_iff, noArgumentIds, List.mem_filterMap]
  constructor
  · rintro ⟨⟨id', entry⟩, hmem, h⟩
    cases entry with
    | none =>
        cases h
        exact hmem
    | some shape => cases h
  · intro h
    exact ⟨_, h, rfl⟩

/-- The ids of an index fall into those that take arguments and those that take none.  Both lists
keep the order of the index, and together they have every id once. -/
structure SplitInto (i : Index) (arguments : List (String × Shape)) (others : List String) :
    Prop where
  mem_arguments_iff : ∀ id s, (id, s) ∈ arguments ↔ i.get? id = some (some s)
  mem_others_iff : ∀ id, id ∈ others ↔ i.get? id = some none
  arguments_sublist : (arguments.map Prod.fst).Sublist i.keys
  others_sublist : others.Sublist i.keys
  perm : (arguments.map Prod.fst ++ others).Perm i.keys

theorem filterMap_eq_map_fst_filter {f : String × Option Shape → Option String}
    {q : String × Option Shape → Bool} (h : ∀ e, f e = if q e = true then some e.1 else none)
    (es : List (String × Option Shape)) : es.filterMap f = (es.filter q).map Prod.fst := by
  induction es with
  | nil => rfl
  | cons e es ih =>
      rw [List.filterMap_cons, h, ih]
      by_cases hq : q e = true
      · rw [if_pos hq, List.filter_cons_of_pos hq, List.map_cons]
      · rw [if_neg hq, List.filter_cons_of_neg hq]

theorem map_fst_argumentIds (i : Index) :
    i.argumentIds.map Prod.fst = (i.entries.filter fun e ↦ e.2.isSome).map Prod.fst := by
  rw [argumentIds, List.map_filterMap]
  refine filterMap_eq_map_fst_filter ?_ i.entries
  rintro ⟨id, entry⟩
  cases entry <;> rfl

theorem noArgumentIds_eq_map_fst (i : Index) :
    i.noArgumentIds = (i.entries.filter fun e ↦ !e.2.isSome).map Prod.fst := by
  refine filterMap_eq_map_fst_filter ?_ i.entries
  rintro ⟨id, entry⟩
  cases entry <;> rfl

theorem splitInto_argumentIds (i : Index) : i.SplitInto i.argumentIds i.noArgumentIds where
  mem_arguments_iff := i.mem_argumentIds_iff
  mem_others_iff := i.mem_noArgumentIds_iff
  arguments_sublist := by
    rw [map_fst_argumentIds]
    exact List.filter_sublist.map _
  others_sublist := by
    rw [noArgumentIds_eq_map_fst]
    exact List.filter_sublist.map _
  perm := by
    rw [map_fst_argumentIds, noArgumentIds_eq_map_fst, ← List.map_append]
    exact (List.filter_append_perm _ _).map _

namespace SplitInto

variable {i : Index} {arguments : List (String × Shape)} {others : List String}

theorem arguments_ne_nil_iff (h : i.SplitInto arguments others) :
    arguments ≠ [] ↔ ∃ id s, i.get? id = some (some s) := by
  constructor
  · intro hne
    obtain ⟨⟨id, s⟩, hmem⟩ := List.exists_mem_of_ne_nil arguments hne
    exact ⟨id, s, (h.mem_arguments_iff id s).mp hmem⟩
  · rintro ⟨id, s, hget⟩
    exact List.ne_nil_of_mem ((h.mem_arguments_iff id s).mpr hget)

theorem others_ne_nil_iff (h : i.SplitInto arguments others) :
    others ≠ [] ↔ ∃ id, i.get? id = some none := by
  constructor
  · intro hne
    obtain ⟨id, hmem⟩ := List.exists_mem_of_ne_nil others hne
    exact ⟨id, (h.mem_others_iff id).mp hmem⟩
  · rintro ⟨id, hget⟩
    exact List.ne_nil_of_mem ((h.mem_others_iff id).mpr hget)

/-- No arguments and no ids without any: then there are no ids. -/
theorem others_ne_nil_or_iff (h : i.SplitInto arguments others) :
    others ≠ [] ∨ arguments = [] ↔ (∃ id, i.get? id = some none) ∨ i.keys = [] := by
  rw [← h.others_ne_nil_iff]
  refine or_congr_right' fun hothers ↦ ?_
  have hperm := h.perm
  rw [not_not.mp hothers, List.append_nil] at hperm
  rw [← List.length_eq_zero_iff, ← List.length_eq_zero_iff, ← hperm.length_eq, List.length_map]

theorem disjoint (h : i.SplitInto arguments others) :
    (arguments.map Prod.fst).Disjoint others := by
  intro id hmem hid
  obtain ⟨⟨id, s⟩, hs, rfl⟩ := List.mem_map.mp hmem
  have hsome := (h.mem_arguments_iff id s).mp hs
  rw [(h.mem_others_iff id).mp hid] at hsome
  cases hsome

theorem mem_or_mem (h : i.SplitInto arguments others) {id : String} (hid : id ∈ i.keys) :
    id ∈ arguments.map Prod.fst ∨ id ∈ others := by
  rw [← List.mem_append]
  exact h.perm.mem_iff.mpr hid

theorem xor_mem (h : i.SplitInto arguments others) {id : String} (hid : id ∈ i.keys) :
    Xor (id ∈ arguments.map Prod.fst) (id ∈ others) := by
  rcases h.mem_or_mem hid with hmem | hmem
  · exact .inl ⟨hmem, fun hmem' ↦ h.disjoint hmem hmem'⟩
  · exact .inr ⟨hmem, fun hmem' ↦ h.disjoint hmem' hmem⟩

end SplitInto

/-! ## Declaring again -/

/-- Only the messages of a resource count. -/
theorem ofResource_filter_isMessage (options : InferenceOptions) (r : Resource) :
    ofResource options (r.filter Entry.isMessage) = ofResource options r := by
  rw [ofResource, Resource.declarations_filter_isMessage]
  rfl

/-- The entries that declarations ask for, in their order. -/
def requested (omitEmptyShapes : Bool) (ds : List (String × Pattern)) :
    List (String × Option Shape) := ds.map fun d ↦ (d.1, entryOf omitEmptyShapes d.2)

theorem keys_requested (omitEmptyShapes : Bool) (ds : List (String × Pattern)) :
    (requested omitEmptyShapes ds).map Prod.fst = ds.map Prod.fst := by
  rw [requested, List.map_map]
  rfl

theorem entryOf_eq (omitEmptyShapes : Bool) (p : Pattern) :
    entryOf omitEmptyShapes p =
      if omitEmptyShapes = true ∧ p.shape = ∅ then none else some p.shape := by
  rw [entryOf]
  simp only [Bool.and_eq_true, Table.isEmpty_iff]

theorem foldlM_declare_lastWriteWins (omitEmptyShapes : Bool) (i : Index)
    (ds : List (String × Pattern)) :
    ds.foldlM (declare ⟨.lastWriteWins, omitEmptyShapes⟩) i =
      .ok ((requested omitEmptyShapes ds).foldl (fun i e ↦ i.insert e.1 e.2) i) := by
  induction ds generalizing i with
  | nil => rfl
  | cons d ds ih =>
      rw [List.foldlM_cons]
      exact ih _

theorem ofResource_lastWriteWins (omitEmptyShapes : Bool) (r : Resource) :
    ofResource ⟨.lastWriteWins, omitEmptyShapes⟩ r =
      .ok (Table.ofList (requested omitEmptyShapes r.declarations)) :=
  foldlM_declare_lastWriteWins omitEmptyShapes Table.empty r.declarations

/-- If ids may be declared again, every resource has an index.  It lists the declared ids in the
order of their first declaration, each with the entry of its last one, and only the messages of the
resource count. -/
theorem lastWriteWins_position_and_entry (omitEmptyShapes : Bool) (r : Resource) :
    ∃ ds i, (∀ es, r.Declares es ↔ es = ds) ∧
      ofResource ⟨.lastWriteWins, omitEmptyShapes⟩ r = .ok i ∧
      i.keys = (ds.map Prod.fst).eraseDups ∧
      (∀ before id p after, ds = before ++ (id, p) :: after → id ∉ after.map Prod.fst →
        i.get? id = some (if omitEmptyShapes = true ∧ p.shape = ∅ then none else some p.shape)) ∧
      ofResource ⟨.lastWriteWins, omitEmptyShapes⟩ (r.filter Entry.isMessage) = .ok i := by
  have hok := ofResource_lastWriteWins omitEmptyShapes r
  refine ⟨r.declarations, _, r.declares_iff, hok, ?_, ?_,
    (ofResource_filter_isMessage _ r).trans hok⟩
  · rw [Table.keys_ofList, keys_requested]
  · intro before id p after hds hlast
    rw [hds, requested, List.map_append, List.map_cons, ← entryOf_eq]
    exact Table.get?_ofList_of_last _ _ ((keys_requested omitEmptyShapes after).symm ▸ hlast)

end Index

end FluentShapes

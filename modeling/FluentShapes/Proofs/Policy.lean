import FluentShapes.Proofs.Index
import FluentShapes.Proofs.Inference
import Mathlib.Data.List.Nodup

/-!
# The options of an index

The declarations of a resource are taken one after another whatever the options are.  A policy only
decides whether a step fails, so as long as no id comes back both policies take the same steps
(`Index.foldlM_declare_reject_of_nodup`).  Leaving out empty shapes only changes what a step writes
(`Index.declare_compact`), so it can as well be done to the whole index at the end.
-/

namespace FluentShapes

/-- A list with a repetition has a first member that stood there before. -/
theorem exists_first_repeat {α : Type} [DecidableEq α] {l : List α} (h : ¬ l.Nodup) :
    ∃ before a after, l = before ++ a :: after ∧ before.Nodup ∧ a ∈ before := by
  induction l using List.reverseRecOn with
  | nil => exact absurd List.nodup_nil h
  | append_singleton l b ih =>
      by_cases hl : l.Nodup
      · have hb : b ∈ l := by
          by_contra hb
          rw [← List.concat_eq_append, List.nodup_concat] at h
          exact h ⟨hb, hl⟩
        exact ⟨l, b, [], rfl, hl, hb⟩
      · obtain ⟨before, a, after, rfl, hnodup, ha⟩ := ih hl
        refine ⟨before, a, after ++ [b], ?_, hnodup, ha⟩
        rw [List.append_assoc, List.cons_append]

namespace Index

/-! ## Rejecting what is declared again -/

section Reject

variable (omitEmptyShapes : Bool)

theorem declare_reject_of_mem {i : Index} {d : String × Pattern} (h : d.1 ∈ i.keys) :
    declare ⟨.reject, omitEmptyShapes⟩ i d = .error ⟨d.1⟩ := by
  simp [declare, (Table.contains_iff i d.1).mpr h]

theorem declare_reject_of_notMem {i : Index} {d : String × Pattern} (h : d.1 ∉ i.keys) :
    declare ⟨.reject, omitEmptyShapes⟩ i d =
      .ok (i.insert d.1 (entryOf omitEmptyShapes d.2)) := by
  have hcontains : i.contains d.1 = false := by
    rw [Bool.eq_false_iff, Ne, Table.contains_iff]
    exact h
  simp [declare, hcontains]

/-- Ids that are all new are appended in their order. -/
theorem foldlM_declare_reject_of_nodup (i : Index) (ds : List (String × Pattern))
    (h : (i.keys ++ ds.map Prod.fst).Nodup) :
    ∃ j, ds.foldlM (declare ⟨.reject, omitEmptyShapes⟩) i = .ok j ∧
      ds.foldlM (declare ⟨.lastWriteWins, omitEmptyShapes⟩) i = .ok j ∧
      j.keys = i.keys ++ ds.map Prod.fst := by
  induction ds generalizing i with
  | nil => exact ⟨i, rfl, rfl, (List.append_nil _).symm⟩
  | cons d ds ih =>
      have hd : d.1 ∉ i.keys := fun hmem ↦
        (List.nodup_append.mp h).2.2 d.1 hmem d.1 List.mem_cons_self rfl
      have hkeys : (i.insert d.1 (entryOf omitEmptyShapes d.2)).keys = i.keys ++ [d.1] := by
        rw [Table.keys_insert, if_neg hd]
      -- The new id moves from the ids to come to the keys, so the hypothesis is the same as before.
      rw [List.map_cons, List.append_cons, ← hkeys] at h
      obtain ⟨j, hreject, hlast, hj⟩ := ih _ h
      refine ⟨j, ?_, ?_, ?_⟩
      · rw [List.foldlM_cons, declare_reject_of_notMem omitEmptyShapes hd]
        exact hreject
      · rw [List.foldlM_cons]
        exact hlast
      · rw [hj, hkeys, List.map_cons, ← List.append_cons]

theorem ofResource_reject_of_nodup {r : Resource} (h : (r.declarations.map Prod.fst).Nodup) :
    ∃ i, ofResource ⟨.reject, omitEmptyShapes⟩ r = .ok i ∧
      ofResource ⟨.lastWriteWins, omitEmptyShapes⟩ r = .ok i := by
  obtain ⟨i, hreject, hlast, -⟩ :=
    foldlM_declare_reject_of_nodup omitEmptyShapes Table.empty r.declarations h
  exact ⟨i, hreject, hlast⟩

/-- The pass stops at the first id that comes back. -/
theorem ofResource_reject_of_repeat {r : Resource} {before after : List String} {id : String}
    (h : r.declarations.map Prod.fst = before ++ id :: after) (hnodup : before.Nodup)
    (hid : id ∈ before) : ofResource ⟨.reject, omitEmptyShapes⟩ r = .error ⟨id⟩ := by
  obtain ⟨ds, es, hsplit, rfl, hes⟩ := List.map_eq_append_iff.mp h
  obtain ⟨d, es, rfl, rfl, rfl⟩ := List.map_eq_cons_iff.mp hes
  obtain ⟨i, hi, -, hkeys⟩ :=
    foldlM_declare_reject_of_nodup omitEmptyShapes Table.empty ds hnodup
  have hmem : d.1 ∈ i.keys := by
    rw [hkeys]
    exact hid
  rw [ofResource, hsplit, List.foldlM_append, hi]
  calc
    _ = (declare ⟨.reject, omitEmptyShapes⟩ i d >>= fun j ↦
          es.foldlM (declare ⟨.reject, omitEmptyShapes⟩) j) := List.foldlM_cons
    _ = .error ⟨d.1⟩ := by
      rw [declare_reject_of_mem omitEmptyShapes hmem]
      rfl

theorem ofResource_reject_cases (r : Resource) :
    ((r.declarations.map Prod.fst).Nodup ∧
        ∃ i, ofResource ⟨.reject, omitEmptyShapes⟩ r = .ok i ∧
          ofResource ⟨.lastWriteWins, omitEmptyShapes⟩ r = .ok i) ∨
      ¬ (r.declarations.map Prod.fst).Nodup ∧
        ∃ before id after, r.declarations.map Prod.fst = before ++ id :: after ∧ before.Nodup ∧
          id ∈ before ∧ ofResource ⟨.reject, omitEmptyShapes⟩ r = .error ⟨id⟩ := by
  by_cases h : (r.declarations.map Prod.fst).Nodup
  · exact .inl ⟨h, ofResource_reject_of_nodup omitEmptyShapes h⟩
  · obtain ⟨before, id, after, hsplit, hnodup, hid⟩ := exists_first_repeat h
    exact .inr ⟨h, before, id, after, hsplit, hnodup, hid,
      ofResource_reject_of_repeat omitEmptyShapes hsplit hnodup hid⟩

theorem ofResource_lastWriteWins_of_reject {r : Resource} {i : Index}
    (h : ofResource ⟨.reject, omitEmptyShapes⟩ r = .ok i) :
    ofResource ⟨.lastWriteWins, omitEmptyShapes⟩ r = .ok i := by
  rcases ofResource_reject_cases omitEmptyShapes r with
    ⟨-, j, hreject, hlast⟩ | ⟨-, before, id, after, -, -, -, herror⟩
  · rw [hlast, ← hreject, h]
  · rw [herror] at h
    cases h

/-- If ids must not be declared again, a resource has an index exactly if no id is.  It is then the
index that the resource has anyway; otherwise the first id that was declared before is reported. -/
theorem reject_first_repetition (r : Resource) :
    ∃ ds, (∀ es, r.Declares es ↔ es = ds) ∧
      ((∃ i, ofResource ⟨.reject, omitEmptyShapes⟩ r = .ok i) ↔ (ds.map Prod.fst).Nodup) ∧
      (∀ i, ofResource ⟨.reject, omitEmptyShapes⟩ r = .ok i →
        ofResource ⟨.lastWriteWins, omitEmptyShapes⟩ r = .ok i) ∧
      ∀ c, ofResource ⟨.reject, omitEmptyShapes⟩ r = .error c ↔
        ∃ before after, ds.map Prod.fst = before ++ c.id :: after ∧ before.Nodup ∧
          c.id ∈ before := by
  refine ⟨r.declarations, r.declares_iff, ?_,
    fun i ↦ ofResource_lastWriteWins_of_reject omitEmptyShapes, fun c ↦ ⟨fun hc ↦ ?_, ?_⟩⟩
  · rcases ofResource_reject_cases omitEmptyShapes r with
      ⟨hnodup, i, hi, -⟩ | ⟨hrepeat, before, id, after, -, -, -, herror⟩
    · exact iff_of_true ⟨i, hi⟩ hnodup
    · refine iff_of_false ?_ hrepeat
      rintro ⟨i, hi⟩
      rw [herror] at hi
      cases hi
  · rcases ofResource_reject_cases omitEmptyShapes r with
      ⟨-, i, hi, -⟩ | ⟨-, before, id, after, hsplit, hnodup, hid, herror⟩
    · rw [hi] at hc
      cases hc
    · rw [herror] at hc
      cases hc
      exact ⟨before, after, hsplit, hnodup, hid⟩
  · rintro ⟨before, after, hsplit, hnodup, hid⟩
    exact ofResource_reject_of_repeat omitEmptyShapes hsplit hnodup hid

end Reject

/-! ## What an entry was declared as

Whatever the options, an id that made it into the index has the entry of its last declaration. -/

theorem ofResource_lastWriteWins_of_ok {policy : CollisionPolicy} {omitEmptyShapes : Bool}
    {r : Resource} {i : Index} (h : ofResource ⟨policy, omitEmptyShapes⟩ r = .ok i) :
    ofResource ⟨.lastWriteWins, omitEmptyShapes⟩ r = .ok i := by
  cases policy with
  | lastWriteWins => exact h
  | reject => exact ofResource_lastWriteWins_of_reject omitEmptyShapes h

theorem get?_eq_some_iff_last {policy : CollisionPolicy} {omitEmptyShapes : Bool} {r : Resource}
    {i : Index} (h : ofResource ⟨policy, omitEmptyShapes⟩ r = .ok i) (id : String)
    (entry : Option Shape) :
    i.get? id = some entry ↔
      ∃ before p after, r.declarations = before ++ (id, p) :: after ∧
        id ∉ after.map Prod.fst ∧ entryOf omitEmptyShapes p = entry := by
  obtain rfl : Table.ofList (requested omitEmptyShapes r.declarations) = i := by
    have hlast := ofResource_lastWriteWins_of_ok h
    rw [ofResource_lastWriteWins] at hlast
    exact Except.ok.inj hlast
  have hget : ∀ before p after, r.declarations = before ++ (id, p) :: after →
      id ∉ after.map Prod.fst →
      (Table.ofList (requested omitEmptyShapes r.declarations)).get? id =
        some (entryOf omitEmptyShapes p) := by
    intro before p after hsplit hlast
    rw [hsplit, requested, List.map_append, List.map_cons]
    exact Table.get?_ofList_of_last _ _ ((keys_requested omitEmptyShapes after).symm ▸ hlast)
  constructor
  · intro hentry
    have hid : id ∈ r.declarations.map Prod.fst := by
      by_contra hid
      rw [(Table.get?_eq_none_iff _ id).mpr] at hentry
      · cases hentry
      · rwa [Table.keys_ofList, List.mem_eraseDups, keys_requested]
    obtain ⟨before, p, after, hsplit, hlast⟩ := Table.exists_last_of_mem_keys hid
    refine ⟨before, p, after, hsplit, hlast, ?_⟩
    rw [hget before p after hsplit hlast] at hentry
    exact Option.some.inj hentry
  · rintro ⟨before, p, after, hsplit, hlast, rfl⟩
    exact hget before p after hsplit hlast

/-! ## Leaving out empty shapes -/

/-- An entry that takes no arguments although it has a shape loses the shape. -/
def compactEntry (entry : Option Shape) : Option Shape := if entry = some ∅ then none else entry

def compact (i : Index) : Index := i.mapValues compactEntry

theorem compactEntry_entryOf (p : Pattern) : compactEntry (entryOf false p) = entryOf true p := by
  rw [entryOf_eq, entryOf_eq, compactEntry]
  simp

/-- A step on the compact index is the compact form of the step: the check sees the same ids, and
what is written over is gone in both. -/
theorem declare_compact (policy : CollisionPolicy) (i : Index) (d : String × Pattern) :
    declare ⟨policy, true⟩ i.compact d = (declare ⟨policy, false⟩ i d).map compact := by
  have hcontains : i.compact.contains d.1 = i.contains d.1 := by
    rw [Table.contains, Table.contains, compact, Table.keys_mapValues]
  have hinsert : i.compact.insert d.1 (entryOf true d.2) =
      compact (i.insert d.1 (entryOf false d.2)) := by
    rw [compact, compact, Table.mapValues_insert, compactEntry_entryOf]
  rw [declare, declare, hcontains]
  split
  · rfl
  · exact congrArg Except.ok hinsert

theorem foldlM_declare_compact (policy : CollisionPolicy) (i : Index)
    (ds : List (String × Pattern)) :
    ds.foldlM (declare ⟨policy, true⟩) i.compact =
      (ds.foldlM (declare ⟨policy, false⟩) i).map compact := by
  induction ds generalizing i with
  | nil => rfl
  | cons d ds ih =>
      rw [List.foldlM_cons, List.foldlM_cons, declare_compact]
      cases declare ⟨policy, false⟩ i d with
      | error c => rfl
      | ok j => exact ih j

theorem ofResource_compact (policy : CollisionPolicy) (r : Resource) :
    ofResource ⟨policy, true⟩ r = (ofResource ⟨policy, false⟩ r).map compact :=
  foldlM_declare_compact policy Table.empty r.declarations

/-- Leaving out empty shapes changes nothing but the entries that have one, whatever the policy.  So
without it every id takes arguments, and with it exactly those ids take none for which the last
pattern has no variable. -/
theorem compact_relabels_empty_shapes (policy : CollisionPolicy) (r : Resource) :
    (ofResource ⟨policy, true⟩ r).map Table.entries =
        ((ofResource ⟨policy, false⟩ r).map fun i ↦ i.entries.map fun (id, entry) ↦
          (id, if entry = some ∅ then none else entry)) ∧
      (∀ i, ofResource ⟨policy, false⟩ r = .ok i → ∀ id, i.get? id ≠ some none) ∧
      ∃ ds, (∀ es, r.Declares es ↔ es = ds) ∧ ∀ i, ofResource ⟨policy, true⟩ r = .ok i →
        (∀ id, id ∈ i.noArgumentIds ↔
          ∃ before p after, ds = before ++ (id, p) :: after ∧ id ∉ after.map Prod.fst ∧
            ∀ x, ¬ p.Contains (.inline (.variableReference x))) ∧
        ∀ id s, (id, s) ∈ i.argumentIds → s ≠ ∅ := by
  refine ⟨?_, ?_, r.declarations, r.declares_iff, fun i hi ↦ ⟨fun id ↦ ?_, fun id s hs ↦ ?_⟩⟩
  · rw [ofResource_compact]
    cases ofResource ⟨policy, false⟩ r <;> rfl
  · intro i hi id hnone
    obtain ⟨before, p, after, -, -, hentry⟩ := (get?_eq_some_iff_last hi id none).mp hnone
    rw [entryOf_eq] at hentry
    simp at hentry
  · rw [mem_noArgumentIds_iff, get?_eq_some_iff_last hi]
    simp only [entryOf_eq, ← Pattern.shape_eq_empty_iff]
    simp
  · rw [mem_argumentIds_iff, get?_eq_some_iff_last hi] at hs
    obtain ⟨before, p, after, -, -, hentry⟩ := hs
    rintro rfl
    rw [entryOf_eq] at hentry
    split at hentry
    · cases hentry
    · rename_i hshape
      exact hshape ⟨rfl, Option.some.inj hentry⟩

end Index

end FluentShapes

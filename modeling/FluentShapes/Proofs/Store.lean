import FluentShapes.Proofs.Index
import Mathlib.Data.Finset.Card

/-!
# What a run of insertions stores

An insertion answers with the value that it replaces.  `Table.Replaces` says all that one of them
does; a run of them from the empty table is a `Table.ofList` together with the answers, so what is
stored can be read off the list of insertions: positions by the first of each key, values by the
last.
-/

namespace FluentShapes

universe u v

namespace Table

variable {κ : Type u} {ν : Type v} [DecidableEq κ]

/-! ## One insertion -/

theorem exchange_fst (k : κ) (v : ν) (l : List (κ × ν)) : (exchange k v l).1 = l.lookup k := by
  induction l with
  | nil => rfl
  | cons p rest ih =>
      obtain ⟨j, w⟩ := p
      rw [exchange, lookup_cons_eq_ite]
      by_cases h : j = k
      · rw [if_pos h, if_pos h.symm]
      · rw [if_neg h, if_neg (Ne.symm h)]
        exact ih

theorem getThenInsert?_eq (t : Table κ ν) (k : κ) (v : ν) :
    t.getThenInsert? k v = (t.get? k, t.insert k v) :=
  Prod.ext (exchange_fst k v t.entries) (eq_of_entries_eq (exchange_snd k v t.entries))

/-- Giving `k` the value `v` takes `t` to `t'`.  The value that `k` had is `old`; all other keys keep
theirs, and every key keeps its position. -/
structure Replaces (t : Table κ ν) (k : κ) (v : ν) (old : Option ν) (t' : Table κ ν) : Prop where
  get?_before : t.get? k = old
  get?_after : t'.get? k = some v
  get?_other : ∀ j, j ≠ k → t'.get? j = t.get? j
  keys_prefix : t.keys <+: t'.keys

theorem replaces_insert (t : Table κ ν) (k : κ) (v : ν) :
    t.Replaces k v (t.get? k) (t.insert k v) where
  get?_before := rfl
  get?_after := by rw [get?_insert, if_pos rfl]
  get?_other j hj := by rw [get?_insert, if_neg hj]
  keys_prefix := by
    rw [keys_insert]
    split
    · exact List.prefix_rfl
    · exact List.prefix_append t.keys [k]

/-! ## Runs -/

/-- Insert the pairs one after another, and list the values that they replace. -/
def insertEach (t : Table κ ν) : List (κ × ν) → List (Option ν) × Table κ ν
  | [] => ([], t)
  | p :: l =>
      let step := t.getThenInsert? p.1 p.2
      let rest := step.2.insertEach l
      (step.1 :: rest.1, rest.2)

theorem insertEach_cons (t : Table κ ν) (p : κ × ν) (l : List (κ × ν)) :
    t.insertEach (p :: l) =
      (t.get? p.1 :: ((t.insert p.1 p.2).insertEach l).1, ((t.insert p.1 p.2).insertEach l).2) := by
  rw [insertEach, getThenInsert?_eq]

theorem insertEach_append (t : Table κ ν) (l m : List (κ × ν)) :
    t.insertEach (l ++ m) =
      ((t.insertEach l).1 ++ ((t.insertEach l).2.insertEach m).1,
        ((t.insertEach l).2.insertEach m).2) := by
  induction l generalizing t with
  | nil => rfl
  | cons p l ih => rw [List.cons_append, insertEach_cons, insertEach_cons, ih, List.cons_append]

theorem length_insertEach (t : Table κ ν) (l : List (κ × ν)) :
    (t.insertEach l).1.length = l.length := by
  induction l generalizing t with
  | nil => rfl
  | cons p l ih => rw [insertEach_cons, List.length_cons, ih, List.length_cons]

/-- The table behind a run. -/
theorem insertEach_snd (t : Table κ ν) (l : List (κ × ν)) :
    (t.insertEach l).2 = l.foldl (fun t p ↦ t.insert p.1 p.2) t := by
  induction l generalizing t with
  | nil => rfl
  | cons p l ih => rw [insertEach_cons, List.foldl_cons, ih]

/-- Every answer of a run is the value that was replaced there. -/
theorem insertEach_replaces (t : Table κ ν) (before : List (κ × ν)) (k : κ) (v : ν)
    (after : List (κ × ν)) :
    ∃ old, (t.insertEach (before ++ (k, v) :: after)).1[before.length]? = some old ∧
      (t.insertEach before).2.Replaces k v old (t.insertEach (before ++ [(k, v)])).2 := by
  refine ⟨(t.insertEach before).2.get? k, ?_, ?_⟩
  · rw [insertEach_append, insertEach_cons,
      List.getElem?_append_right (length_insertEach t before).le, length_insertEach, Nat.sub_self]
    rfl
  · rw [insertEach_append, insertEach_cons]
    exact replaces_insert _ k v

theorem size_eq_card (t : Table κ ν) : t.size = t.keys.toFinset.card := by
  rw [keys, List.toFinset_card_of_nodup t.nodup, List.length_map, size]

theorem size_ofList (l : List (κ × ν)) : (ofList l).size = (l.map Prod.fst).toFinset.card := by
  have hkeys : (ofList l).keys.toFinset = (l.map Prod.fst).toFinset := by
    ext k
    rw [List.mem_toFinset, List.mem_toFinset, keys_ofList, List.mem_eraseDups]
  rw [size_eq_card, hkeys]

end Table

namespace Index

/-- After any insertions into a new index, the ids stand in the order of their first insertion, each
with the entry of its last one.  Every insertion has answered with the entry that it replaced, and
has left all other entries and all positions alone.  The ids that take arguments and those that take
none are told apart by the last entry, however often an id has gone from one side to the other. -/
theorem insertEach_positions_and_entries (l : List (String × Option Shape)) :
    ∃ (replaced : List (Option (Option Shape))) (i : Index),
      Table.empty.insertEach l = (replaced, i) ∧
      i.keys.Nodup ∧
      i.keys = (l.map Prod.fst).eraseDups ∧
      (∀ id, i.get? id = l.reverse.lookup id) ∧
      replaced.length = l.length ∧
      (∀ before id entry after, l = before ++ (id, entry) :: after →
        ∃ old, replaced[before.length]? = some old ∧
          (Table.empty.insertEach before).2.Replaces id entry old
            (Table.empty.insertEach (before ++ [(id, entry)])).2) ∧
      i.size = (l.map Prod.fst).toFinset.card ∧
      (i.argumentIds.map Prod.fst).Sublist i.keys ∧
      i.noArgumentIds.Sublist i.keys ∧
      (i.argumentIds.map Prod.fst).Disjoint i.noArgumentIds ∧
      (∀ id ∈ i.keys, id ∈ i.argumentIds.map Prod.fst ∨ id ∈ i.noArgumentIds) ∧
      (∀ id s, (id, s) ∈ i.argumentIds ↔ l.reverse.lookup id = some (some s)) ∧
      ∀ id, id ∈ i.noArgumentIds ↔ l.reverse.lookup id = some none := by
  have hrun : Table.empty.insertEach l = ((Table.empty.insertEach l).1, Table.ofList l) :=
    Prod.ext rfl (Table.insertEach_snd Table.empty l)
  have hsplit := splitInto_argumentIds (Table.ofList l)
  refine ⟨_, _, hrun, (Table.ofList l).nodup, Table.keys_ofList l, Table.get?_ofList l,
    Table.length_insertEach _ l, ?_, Table.size_ofList l, hsplit.arguments_sublist,
    hsplit.others_sublist, hsplit.disjoint, fun id ↦ hsplit.mem_or_mem, ?_, ?_⟩
  · rintro before id entry after rfl
    exact Table.insertEach_replaces _ before id entry after
  · intro id s
    rw [hsplit.mem_arguments_iff, Table.get?_ofList]
  · intro id
    rw [hsplit.mem_others_iff, Table.get?_ofList]

/-- Two ids change sides. -/
theorem insertEach_positions_and_entries_swapped :
    ∃ (replaced : List (Option (Option Shape))) (i : Index),
      Table.empty.insertEach [("a", some ∅), ("b", none), ("a", none), ("b", some ∅)] =
        (replaced, i) ∧
      i.keys = ["a", "b"] ∧
      replaced[2]? = some (some (some ∅)) ∧
      (Table.empty.insertEach [("a", some ∅), ("b", none), ("a", none)]).2.get? "b" =
        some (none : Option Shape) ∧
      "a" ∈ i.noArgumentIds ∧ "a" ∉ i.argumentIds.map Prod.fst ∧ ("b", ∅) ∈ i.argumentIds := by
  obtain ⟨replaced, i, hrun, -, hkeys, -, -, hreplaces, -, -, -, hdisjoint, -, harguments, hothers⟩ :=
    insertEach_positions_and_entries [("a", some ∅), ("b", none), ("a", none), ("b", some ∅)]
  obtain ⟨old, hold, hthird⟩ :=
    hreplaces [("a", some ∅), ("b", none)] "a" none [("b", some ∅)] rfl
  have ha : "a" ∈ i.noArgumentIds := (hothers "a").mpr rfl
  refine ⟨replaced, i, hrun, hkeys, ?_, ?_, ha, fun hmem ↦ hdisjoint hmem ha,
    (harguments "b" ∅).mpr rfl⟩
  · rw [← hthird.get?_before] at hold
    exact hold
  · exact hthird.get?_other "b" (by decide)

end Index

end FluentShapes

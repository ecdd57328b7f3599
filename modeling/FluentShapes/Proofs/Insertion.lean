import FluentShapes.Distinct
import FluentShapes.Table
import Mathlib.Data.List.Induction

/-!
# Insertion order

Lists without repetition and tables keep a member where it was first added.  Built up from a list,
both hold its members in the order of their first occurrence, which is `List.eraseDups`.  A table is
determined by the order of its keys together with its lookups, so two ways to build one agree as
soon as they agree on both.
-/

namespace FluentShapes

universe u v w

section FirstOccurrence

variable {α : Type u} [DecidableEq α]

/-- One more member at the end counts only if it is new. -/
theorem eraseDups_concat (l : List α) (a : α) :
    (l ++ [a]).eraseDups = if a ∈ l then l.eraseDups else l.eraseDups ++ [a] := by
  rw [List.eraseDups_append]
  by_cases h : a ∈ l <;> simp [List.removeAll, h, List.eraseDups_cons]

/-- Dropping members and dropping repetitions commute. -/
theorem eraseDups_filter (q : α → Bool) (l : List α) :
    (l.filter q).eraseDups = l.eraseDups.filter q := by
  induction l using List.reverseRecOn with
  | nil => rfl
  | append_singleton l a ih =>
      rw [List.filter_append, eraseDups_concat]
      by_cases hq : q a
      · rw [List.filter_cons_of_pos hq, List.filter_nil, eraseDups_concat, ih]
        by_cases ha : a ∈ l <;> simp [ha, hq]
      · rw [List.filter_cons_of_neg hq, List.filter_nil, List.append_nil, ih]
        by_cases ha : a ∈ l <;> simp [ha, hq]

/-- The first occurrences in a concatenation are those of the first part, then the new ones of the
second. -/
theorem eraseDups_append_eq (l m : List α) :
    (l ++ m).eraseDups = l.eraseDups ++ m.eraseDups.filter (· ∉ l) := by
  rw [List.eraseDups_append, ← eraseDups_filter]
  congr 2
  simp [List.removeAll]

/-- Only the first occurrences of the parts matter to those of a concatenation. -/
theorem eraseDups_append_congr {l l' m m' : List α} (hl : l.eraseDups = l'.eraseDups)
    (hm : m.eraseDups = m'.eraseDups) : (l ++ m).eraseDups = (l' ++ m').eraseDups := by
  have hmem : ∀ a, a ∈ l ↔ a ∈ l' := fun a ↦ by
    rw [← List.mem_eraseDups, hl, List.mem_eraseDups]
  rw [eraseDups_append_eq, eraseDups_append_eq, hl, hm]
  simp only [hmem]

theorem eraseDups_of_nodup {l : List α} (h : l.Nodup) : l.eraseDups = l := by
  induction l using List.reverseRecOn with
  | nil => rfl
  | append_singleton l a ih =>
      rw [List.nodup_append] at h
      have ha : a ∉ l := fun ha ↦ h.2.2 a ha a (List.mem_singleton.mpr rfl) rfl
      rw [eraseDups_concat, if_neg ha, ih h.1]

theorem eraseDups_flatMap_congr {β : Type v} {f g : β → List α} {l : List β}
    (h : ∀ b ∈ l, (f b).eraseDups = (g b).eraseDups) :
    (l.flatMap f).eraseDups = (l.flatMap g).eraseDups := by
  induction l with
  | nil => rfl
  | cons b l ih =>
      rw [List.flatMap_cons, List.flatMap_cons]
      exact eraseDups_append_congr (h b List.mem_cons_self)
        (ih fun c hc ↦ h c (List.mem_cons_of_mem b hc))

theorem eraseDups_cons_cons_self (a : α) (l : List α) :
    (a :: a :: l).eraseDups = (a :: l).eraseDups := by
  simp [List.eraseDups_cons]

end FirstOccurrence

namespace Distinct

variable {α : Type u} [DecidableEq α]

omit [DecidableEq α] in
theorem eq_of_toList_eq {s t : Distinct α} (h : s.toList = t.toList) : s = t := by
  cases s
  cases t
  cases h
  rfl

theorem toList_ofList (l : List α) : (ofList l).toList = l.eraseDups := by
  induction l using List.reverseRecOn with
  | nil => rfl
  | append_singleton l a ih =>
      have hstep : ofList (l ++ [a]) = (ofList l).push a := List.foldl_append
      rw [hstep, toList_push, ih, eraseDups_concat]
      simp only [List.mem_eraseDups]

theorem ofList_toList (s : Distinct α) : ofList s.toList = s :=
  eq_of_toList_eq ((toList_ofList s.toList).trans (eraseDups_of_nodup s.nodup))

end Distinct

theorem eraseDups_eraseDups {α : Type u} [DecidableEq α] (l : List α) :
    l.eraseDups.eraseDups = l.eraseDups := by
  have hnodup : l.eraseDups.Nodup := Distinct.toList_ofList l ▸ (Distinct.ofList l).nodup
  exact eraseDups_of_nodup hnodup

namespace Table

variable {κ : Type u} {ν : Type v}

theorem isEmpty_iff (t : Table κ ν) : t.isEmpty = true ↔ t = ∅ := by
  rw [isEmpty, List.isEmpty_iff]
  constructor
  · intro h
    cases t
    cases h
    rfl
  · rintro rfl
    rfl

theorem eq_of_entries_eq {s t : Table κ ν} (h : s.entries = t.entries) : s = t := by
  cases s
  cases t
  cases h
  rfl

theorem keys_eq_nil_iff (t : Table κ ν) : t.keys = [] ↔ t = ∅ := by
  rw [keys, List.map_eq_nil_iff, ← isEmpty_iff, isEmpty, List.isEmpty_iff]

variable [DecidableEq κ]

theorem lookup_cons_eq_ite (k : κ) (v : ν) (l : List (κ × ν)) (j : κ) :
    ((k, v) :: l).lookup j = if j = k then some v else l.lookup j := by
  by_cases h : j = k
  · simp [h]
  · simp [List.lookup_cons, beq_false_of_ne h, h]

theorem lookup_eq_none_iff_keys (l : List (κ × ν)) (k : κ) :
    l.lookup k = none ↔ k ∉ l.map Prod.fst := by
  rw [List.lookup_eq_none_iff, List.mem_map]
  constructor
  · rintro h ⟨p, hp, rfl⟩
    simpa using h p hp
  · intro h p hp
    exact bne_iff_ne.mpr fun e ↦ h ⟨p, hp, e.symm⟩

theorem lookup_put (k : κ) (v : ν) (l : List (κ × ν)) (j : κ) :
    (put k v l).lookup j = if j = k then some v else l.lookup j := by
  induction l with
  | nil => rw [put, lookup_cons_eq_ite]
  | cons p rest ih =>
      obtain ⟨i, w⟩ := p
      rw [put, lookup_cons_eq_ite]
      by_cases hik : i = k
      · rw [if_pos hik, lookup_cons_eq_ite, hik]
        split <;> rfl
      · rw [if_neg hik, lookup_cons_eq_ite, ih]
        by_cases hji : j = i
        · rw [if_pos hji, if_pos hji, if_neg (hji ▸ hik)]
        · rw [if_neg hji, if_neg hji]

theorem contains_iff (t : Table κ ν) (k : κ) : t.contains k = true ↔ k ∈ t.keys :=
  decide_eq_true_iff

theorem get?_eq_none_iff (t : Table κ ν) (k : κ) : t.get? k = none ↔ k ∉ t.keys :=
  lookup_eq_none_iff_keys t.entries k

theorem eraseDups_keys (t : Table κ ν) : t.keys.eraseDups = t.keys := eraseDups_of_nodup t.nodup

theorem entries_insert (t : Table κ ν) (k : κ) (v : ν) :
    (t.insert k v).entries = put k v t.entries := rfl

theorem get?_insert (t : Table κ ν) (k : κ) (v : ν) (j : κ) :
    (t.insert k v).get? j = if j = k then some v else t.get? j :=
  lookup_put k v t.entries j

theorem entries_eq_of_lookup_eq {l m : List (κ × ν)} (hl : (l.map Prod.fst).Nodup)
    (hk : l.map Prod.fst = m.map Prod.fst) (h : ∀ k, l.lookup k = m.lookup k) : l = m := by
  induction l generalizing m with
  | nil => exact (List.map_eq_nil_iff.mp hk.symm).symm
  | cons p l ih =>
      obtain ⟨k, v⟩ := p
      cases m with
      | nil => cases hk
      | cons q m =>
          obtain ⟨j, w⟩ := q
          rw [List.map_cons, List.map_cons, List.cons.injEq] at hk
          obtain ⟨rfl, hk⟩ := hk
          rw [List.map_cons, List.nodup_cons] at hl
          have hvw : v = w := by simpa using h k
          have hrest : ∀ i, l.lookup i = m.lookup i := by
            intro i
            by_cases hi : i = k
            · subst hi
              rw [(lookup_eq_none_iff_keys l i).mpr hl.1,
                (lookup_eq_none_iff_keys m i).mpr (hk ▸ hl.1)]
            · simpa [lookup_cons_eq_ite, hi] using h i
          rw [hvw, ih hl.2 hk hrest]

/-- A table is its keys in order and its lookups. -/
theorem ext_get? {s t : Table κ ν} (hk : s.keys = t.keys) (h : ∀ k, s.get? k = t.get? k) :
    s = t :=
  eq_of_entries_eq (entries_eq_of_lookup_eq s.nodup hk h)

/-! ### Runs of insertions -/

theorem ofList_concat (l : List (κ × ν)) (p : κ × ν) :
    ofList (l ++ [p]) = (ofList l).insert p.1 p.2 := List.foldl_append

theorem keys_ofList (l : List (κ × ν)) : (ofList l).keys = (l.map Prod.fst).eraseDups := by
  induction l using List.reverseRecOn with
  | nil => rfl
  | append_singleton l p ih =>
      rw [ofList_concat, keys_insert, ih, List.map_append, List.map_singleton, eraseDups_concat]
      simp only [List.mem_eraseDups]

/-- A key has the value of its last insertion, which is the first one seen from the end. -/
theorem get?_ofList (l : List (κ × ν)) (k : κ) : (ofList l).get? k = l.reverse.lookup k := by
  induction l using List.reverseRecOn with
  | nil => rfl
  | append_singleton l p ih =>
      rw [ofList_concat, get?_insert, List.reverse_concat, lookup_cons_eq_ite, ih]

theorem get?_ofList_of_last (before : List (κ × ν)) {k : κ} (v : ν) {after : List (κ × ν)}
    (h : k ∉ after.map Prod.fst) : (ofList (before ++ (k, v) :: after)).get? k = some v := by
  have hafter : after.reverse.lookup k = none := by
    rw [lookup_eq_none_iff_keys, List.map_reverse, List.mem_reverse]
    exact h
  rw [get?_ofList, List.reverse_append, List.reverse_cons, List.append_assoc, List.lookup_append,
    hafter, Option.none_or, List.singleton_append, lookup_cons_eq_ite, if_pos rfl]

/-- A list with a key has a last pair with that key. -/
theorem exists_last_of_mem_keys {l : List (κ × ν)} {k : κ} (h : k ∈ l.map Prod.fst) :
    ∃ before v after, l = before ++ (k, v) :: after ∧ k ∉ after.map Prod.fst := by
  induction l with
  | nil => cases h
  | cons p l ih =>
      by_cases hk : k ∈ l.map Prod.fst
      · obtain ⟨before, v, after, rfl, hlast⟩ := ih hk
        exact ⟨p :: before, v, after, rfl, hlast⟩
      · rw [List.map_cons, List.mem_cons] at h
        obtain rfl := h.resolve_right hk
        exact ⟨[], p.2, l, rfl, hk⟩

theorem put_of_notMem {k : κ} (v : ν) {l : List (κ × ν)} (h : k ∉ l.map Prod.fst) :
    put k v l = l ++ [(k, v)] := by
  induction l with
  | nil => rfl
  | cons p l ih =>
      obtain ⟨j, w⟩ := p
      rw [List.map_cons, List.mem_cons, not_or] at h
      rw [put, if_neg (Ne.symm h.1), ih h.2, List.cons_append]

/-- Pairs with different keys are kept as they are. -/
theorem entries_ofList {l : List (κ × ν)} (h : (l.map Prod.fst).Nodup) :
    (ofList l).entries = l := by
  induction l using List.reverseRecOn with
  | nil => rfl
  | append_singleton l p ih =>
      rw [List.map_append, List.nodup_append] at h
      have hp : p.1 ∉ l.map Prod.fst := fun hmem ↦ h.2.2 p.1 hmem p.1 List.mem_cons_self rfl
      rw [ofList_concat, entries_insert, ih h.1, put_of_notMem p.2 hp]

theorem ofList_entries (t : Table κ ν) : ofList t.entries = t :=
  eq_of_entries_eq (entries_ofList t.nodup)

theorem mem_of_lookup_eq_some {l : List (κ × ν)} {k : κ} {v : ν} (h : l.lookup k = some v) :
    (k, v) ∈ l := by
  obtain ⟨before, after, rfl, -⟩ := List.lookup_eq_some_iff.mp h
  exact List.mem_append_right before List.mem_cons_self

theorem mem_entries_iff (t : Table κ ν) (k : κ) (v : ν) :
    (k, v) ∈ t.entries ↔ t.get? k = some v := by
  refine ⟨fun h ↦ ?_, mem_of_lookup_eq_some⟩
  obtain ⟨before, after, hsplit⟩ := List.append_of_mem h
  have hnodup := t.nodup
  rw [hsplit, List.map_append, List.nodup_append] at hnodup
  have hlast : k ∉ after.map Prod.fst := (List.nodup_cons.mp hnodup.2.1).1
  rw [← ofList_entries t, hsplit, get?_ofList_of_last before v hlast]

/-- Nothing is in a table that was not inserted. -/
theorem mem_of_mem_ofList {l : List (κ × ν)} {k : κ} {v : ν} (h : (k, v) ∈ (ofList l).entries) :
    (k, v) ∈ l := by
  have hk : k ∈ (ofList l).keys := List.mem_map_of_mem h
  rw [keys_ofList, List.mem_eraseDups] at hk
  obtain ⟨before, w, after, rfl, hlast⟩ := exists_last_of_mem_keys hk
  rw [mem_entries_iff, get?_ofList_of_last before w hlast] at h
  obtain rfl := Option.some.inj h
  exact List.mem_append_right before List.mem_cons_self

/-! ### Other values for the same keys -/

section MapValues

variable {μ : Type w} (f : ν → μ)

omit [DecidableEq κ] in
theorem keys_map_values (l : List (κ × ν)) :
    (l.map (Prod.map id f)).map Prod.fst = l.map Prod.fst := by
  rw [List.map_map]
  rfl

/-- Change every value where it stands. -/
def mapValues (t : Table κ ν) : Table κ μ :=
  ⟨t.entries.map (Prod.map id f), (keys_map_values f t.entries).symm ▸ t.nodup⟩

omit [DecidableEq κ] in
@[simp] theorem keys_mapValues (t : Table κ ν) : (t.mapValues f).keys = t.keys :=
  keys_map_values f t.entries

theorem lookup_map_values (l : List (κ × ν)) (k : κ) :
    (l.map (Prod.map id f)).lookup k = (l.lookup k).map f := by
  induction l with
  | nil => rfl
  | cons p l ih =>
      obtain ⟨j, v⟩ := p
      rw [List.map_cons, Prod.map_apply, id, lookup_cons_eq_ite, lookup_cons_eq_ite, ih]
      split <;> rfl

theorem get?_mapValues (t : Table κ ν) (k : κ) : (t.mapValues f).get? k = (t.get? k).map f :=
  lookup_map_values f t.entries k

theorem mapValues_insert (t : Table κ ν) (k : κ) (v : ν) :
    (t.insert k v).mapValues f = (t.mapValues f).insert k (f v) := by
  refine ext_get? ?_ fun j ↦ ?_
  · rw [keys_mapValues, keys_insert, keys_insert, keys_mapValues]
  · rw [get?_mapValues, get?_insert, get?_insert, get?_mapValues]
    split <;> rfl

omit [DecidableEq κ] in
theorem mem_mapValues_iff (t : Table κ ν) (k : κ) (m : μ) :
    (k, m) ∈ (t.mapValues f).entries ↔ ∃ v, (k, v) ∈ t.entries ∧ f v = m := by
  rw [mapValues, List.mem_map]
  constructor
  · rintro ⟨⟨j, v⟩, hmem, heq⟩
    cases heq
    exact ⟨v, hmem, rfl⟩
  · rintro ⟨v, hmem, rfl⟩
    exact ⟨(k, v), hmem, rfl⟩

end MapValues

omit [DecidableEq κ] in
theorem mapValues_eq_self {f : ν → ν} {t : Table κ ν} (h : ∀ k v, (k, v) ∈ t.entries → f v = v) :
    t.mapValues f = t := by
  refine eq_of_entries_eq ((List.map_congr_left ?_).trans t.entries.map_id)
  rintro ⟨k, v⟩ hmem
  exact congrArg (Prod.mk k) (h k v hmem)

end Table

end FluentShapes

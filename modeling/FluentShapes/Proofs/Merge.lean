import FluentShapes.Proofs.Inference

/-!
# Merging shapes

The scope that collects the mentions of a pattern remembers more than the shape it ends in: also
what was selected on.  For the mentions of a pattern this can be read off the shape, since a
selection always offers a union, so the shapes of the parts of a pattern determine that of the
whole.  `Shape.merge` is how.
-/

namespace FluentShapes

/-! ## The merge of two shapes

A merge is determined by its keys (`Shape.keys_merge`) and its lookups (`Shape.get?_merge`), and
both laws are those of an associative operation. -/

/-- The first of two types that knows its keys. -/
def ArgumentType.orElse : ArgumentType → ArgumentType → ArgumentType
  | opaqueType, type => type
  | union keys, _ => union keys

instance : Std.Associative ArgumentType.orElse := ⟨fun a b c ↦ by cases a <;> rfl⟩

namespace Shape

/-- A new name is appended.  A known one stays where it is, and only a union for what was opaque
changes its type. -/
def absorb (s : Shape) (x : String) (type : ArgumentType) : Shape :=
  match s.get? x, type with
  | none, _ => s.insert x type
  | some .opaqueType, .union _ => s.insert x type
  | some _, _ => s

/-- Take in the arguments of the second shape one after another. -/
def merge (s t : Shape) : Shape := t.entries.foldl (fun s e ↦ absorb s e.1 e.2) s

theorem absorb_of_get?_eq_none {s : Shape} {x : String} (h : s.get? x = none)
    (type : ArgumentType) : s.absorb x type = s.insert x type := by
  unfold absorb
  rw [h]

theorem absorb_of_get?_eq_union {s : Shape} {x : String} {keys : Distinct LiteralKey}
    (h : s.get? x = some (.union keys)) (type : ArgumentType) : s.absorb x type = s := by
  unfold absorb
  rw [h]

theorem absorb_of_get?_eq_opaqueType {s : Shape} {x : String} (h : s.get? x = some .opaqueType)
    (type : ArgumentType) : s.absorb x type = if type.isOpaque then s else s.insert x type := by
  unfold absorb
  rw [h]
  cases type <;> rfl

theorem keys_absorb (s : Shape) (x : String) (type : ArgumentType) :
    (s.absorb x type).keys = if x ∈ s.keys then s.keys else s.keys ++ [x] := by
  have hmem : ∀ {old}, s.get? x = some old → x ∈ s.keys := fun hget ↦ by
    by_contra hx
    rw [(Table.get?_eq_none_iff s x).mpr hx] at hget
    cases hget
  cases hget : s.get? x with
  | none => rw [absorb_of_get?_eq_none hget, Table.keys_insert]
  | some old =>
      cases old with
      | union keys => rw [absorb_of_get?_eq_union hget, if_pos (hmem hget)]
      | opaqueType =>
          rw [absorb_of_get?_eq_opaqueType hget]
          split
          · rw [if_pos (hmem hget)]
          · rw [Table.keys_insert]

theorem get?_absorb (s : Shape) (x : String) (type : ArgumentType) (y : String) :
    (s.absorb x type).get? y =
      if y = x then Option.merge .orElse (s.get? x) (some type) else s.get? y := by
  have hsame : s.get? y = if y = x then s.get? x else s.get? y := by
    split
    · rename_i hy
      rw [hy]
    · rfl
  cases hget : s.get? x with
  | none => rw [absorb_of_get?_eq_none hget, Table.get?_insert, Option.merge_none_left]
  | some old =>
      cases old with
      | union keys =>
          rw [absorb_of_get?_eq_union hget]
          exact hsame.trans (by rw [hget]; rfl)
      | opaqueType =>
          rw [absorb_of_get?_eq_opaqueType hget]
          cases type with
          | opaqueType => exact hsame.trans (by rw [hget]; rfl)
          | union keys => exact Table.get?_insert s x _ y

theorem keys_foldl_absorb (s : Shape) (l : List (String × ArgumentType)) :
    (l.foldl (fun s e ↦ absorb s e.1 e.2) s).keys = (s.keys ++ l.map Prod.fst).eraseDups := by
  induction l generalizing s with
  | nil => rw [List.map_nil, List.append_nil, Table.eraseDups_keys, List.foldl_nil]
  | cons e l ih =>
      have hstep : (s.absorb e.1 e.2).keys = (s.keys ++ [e.1]).eraseDups := by
        rw [keys_absorb, eraseDups_concat, Table.eraseDups_keys]
      rw [List.foldl_cons, ih, hstep, List.map_cons, List.append_cons s.keys e.1 (l.map Prod.fst)]
      exact eraseDups_append_congr (eraseDups_eraseDups _) rfl

theorem get?_foldl_absorb (s : Shape) {l : List (String × ArgumentType)}
    (hl : (l.map Prod.fst).Nodup) (x : String) :
    (l.foldl (fun s e ↦ absorb s e.1 e.2) s).get? x =
      Option.merge .orElse (s.get? x) (l.lookup x) := by
  induction l generalizing s with
  | nil => rw [List.lookup_nil, Option.merge_none_right, List.foldl_nil]
  | cons e l ih =>
      obtain ⟨y, type⟩ := e
      rw [List.map_cons, List.nodup_cons] at hl
      rw [List.foldl_cons, ih _ hl.2, get?_absorb, Table.lookup_cons_eq_ite]
      by_cases hx : x = y
      · subst hx
        rw [if_pos rfl, if_pos rfl, (Table.lookup_eq_none_iff_keys l x).mpr hl.1,
          Option.merge_none_right]
      · rw [if_neg hx, if_neg hx]

theorem keys_merge (s t : Shape) : (s.merge t).keys = (s.keys ++ t.keys).eraseDups :=
  keys_foldl_absorb s t.entries

theorem get?_merge (s t : Shape) (x : String) :
    (s.merge t).get? x = Option.merge .orElse (s.get? x) (t.get? x) :=
  get?_foldl_absorb s t.nodup x

theorem merge_assoc (r s t : Shape) : (r.merge s).merge t = r.merge (s.merge t) := by
  refine Table.ext_get? ?_ fun x ↦ ?_
  · rw [keys_merge, keys_merge, keys_merge, keys_merge]
    calc
      _ = (r.keys ++ s.keys ++ t.keys).eraseDups :=
        eraseDups_append_congr (eraseDups_eraseDups _) rfl
      _ = (r.keys ++ (s.keys ++ t.keys)).eraseDups := by rw [List.append_assoc]
      _ = _ := eraseDups_append_congr rfl (eraseDups_eraseDups _).symm
  · rw [get?_merge, get?_merge, get?_merge, get?_merge]
    exact Std.Associative.assoc _ _ _

theorem empty_merge (s : Shape) : merge ∅ s = s := by
  refine Table.ext_get? ?_ fun x ↦ ?_
  · rw [keys_merge]
    exact Table.eraseDups_keys s
  · rw [get?_merge]
    exact Option.merge_none_left

theorem merge_empty (s : Shape) : s.merge ∅ = s := rfl

end Shape

/-! ## Runs that narrow

Where no selection offers the opaque type, the names that were selected on are those with a union,
so the shape of a run is all that matters to what comes after it.  What comes after can as well be
run on its own and merged in. -/

namespace Scope

/-- The mentions that select on a name never offer the opaque type for it first. -/
def Narrowing (ms : List Mention) : Prop := ∀ x, Mention.first? ms x ≠ some .opaqueType

theorem Narrowing.append {ms ns : List Mention} (hm : Narrowing ms) (hn : Narrowing ns) :
    Narrowing (ms ++ ns) := by
  intro x
  rw [Mention.first?_append]
  cases hx : Mention.first? ms x with
  | none => exact hn x
  | some c =>
      rw [Option.some_or, ← hx]
      exact hm x

theorem get?_run_append {ms : List Mention} (h : Narrowing ms) (ns : List Mention) (x : String) :
    (empty.run (ms ++ ns)).shape.get? x =
      Option.merge .orElse ((empty.run ms).shape.get? x) ((empty.run ns).shape.get? x) := by
  have hboth := records_run (ms ++ ns)
  by_cases hm : x ∈ ms.map Mention.name
  · rw [hboth.get?_eq x (by rw [List.map_append]; exact List.mem_append_left _ hm),
      (records_run ms).get?_eq x hm, Mention.first?_append]
    by_cases hn : x ∈ ns.map Mention.name
    · rw [(records_run ns).get?_eq x hn, Option.merge_some_some]
      -- A candidate of `ms` is a union, so the right side cannot take the one of `ns` instead.
      cases hc : Mention.first? ms x with
      | none => rfl
      | some c =>
          cases c with
          | opaqueType => exact absurd hc (h x)
          | union keys => rfl
    · rw [(records_run ns).get?_eq_none hn, Mention.first?_of_notMem hn, Option.or_none,
        Option.merge_none_right]
  · rw [(records_run ms).get?_eq_none hm, Option.merge_none_left]
    by_cases hn : x ∈ ns.map Mention.name
    · rw [hboth.get?_eq x (by rw [List.map_append]; exact List.mem_append_right _ hn),
        (records_run ns).get?_eq x hn, Mention.first?_append, Mention.first?_of_notMem hm,
        Option.none_or]
    · rw [(records_run ns).get?_eq_none hn, hboth.get?_eq_none]
      rw [List.map_append, List.mem_append]
      exact not_or.mpr ⟨hm, hn⟩

theorem shape_run_append {ms : List Mention} (h : Narrowing ms) (ns : List Mention) :
    (empty.run (ms ++ ns)).shape = (empty.run ms).shape.merge (empty.run ns).shape := by
  refine Table.ext_get? ?_ fun x ↦ ?_
  · rw [Shape.keys_merge, (records_run _).keys_eq, (records_run ms).keys_eq,
      (records_run ns).keys_eq, List.map_append]
    exact eraseDups_append_congr (eraseDups_eraseDups _).symm (eraseDups_eraseDups _).symm
  · rw [Shape.get?_merge]
    exact get?_run_append h ns x

end Scope

/-! ## Patterns -/

namespace Pattern

/-- Every selection on a variable offers a union, be it of no keys. -/
theorem narrowing_ownMentions (l : List Expression) :
    Scope.Narrowing (l.flatMap Expression.ownMentions) := by
  induction l with
  | nil => exact fun x h ↦ by cases h
  | cons e l ih =>
      rw [List.flatMap_cons]
      refine Scope.Narrowing.append (fun x h ↦ ?_) ih
      by_cases he : ∃ vs, e = .select (.variableReference x) vs
      · obtain ⟨vs, rfl⟩ := he
        rw [Expression.first?_ownMentions_select] at h
        cases h
      · rw [Expression.first?_ownMentions_of_ne fun vs e ↦ he ⟨vs, e⟩] at h
        cases h

theorem narrowing_mentions (p : Pattern) : Scope.Narrowing p.mentions := by
  rw [mentions_eq]
  exact narrowing_ownMentions p.preorder

theorem mentions_append (p q : Pattern) : mentions (p ++ q) = p.mentions ++ q.mentions := by
  rw [mentions_eq, preorder_append, List.flatMap_append, ← mentions_eq, ← mentions_eq]

theorem shape_append (p q : Pattern) : shape (p ++ q) = p.shape.merge q.shape := by
  rw [shape, mentions_append]
  exact Scope.shape_run_append p.narrowing_mentions q.mentions

/-- The shapes of the variants are merged in one after another. -/
theorem shape_run_variants {ms : List Mention} (h : Scope.Narrowing ms) (vs : List Variant) :
    (Scope.empty.run (ms ++ vs.flatMap fun v ↦ v.value.mentions)).shape =
      (vs.map fun v ↦ v.value.shape).foldl Shape.merge (Scope.empty.run ms).shape := by
  induction vs generalizing ms with
  | nil => rw [List.flatMap_nil, List.append_nil, List.map_nil, List.foldl_nil]
  | cons v vs ih =>
      rw [List.flatMap_cons, ← List.append_assoc, ih (h.append v.value.narrowing_mentions),
        Scope.shape_run_append h, List.map_cons, List.foldl_cons]
      rfl

theorem shape_run_selector (x : String) (c : ArgumentType) :
    (Scope.empty.run [.selector x c, .reference x]).shape = Table.insert ∅ x c := by
  have hsel : Scope.empty.selector x c = ⟨Table.insert ∅ x c, Distinct.push ∅ x⟩ := rfl
  have hx : (Table.insert ∅ x c : Shape).contains x = true := by
    rw [Table.contains_iff, Table.keys_insert]
    exact List.mem_singleton.mpr rfl
  rw [Scope.run_cons, Scope.run_cons, Scope.run_nil, Scope.mention, Scope.mention, hsel,
    Scope.reference, if_pos hx]

/-- A selection on a variable has the shape of the variable alone, with those of its variants
merged in. -/
theorem shape_select (x : String) (vs : List Variant) :
    shape [.placeable (.select (.variableReference x) vs)] =
      (vs.map fun v ↦ v.value.shape).foldl Shape.merge
        (Table.insert ∅ x (.ofKeys (vs.map fun v ↦ v.key.literalKey))) := by
  have hself : Scope.Narrowing
      [.selector x (.ofKeys (vs.map fun v ↦ v.key.literalKey)), .reference x] :=
    narrowing_ownMentions [.select (.variableReference x) vs, .inline (.variableReference x)]
  have hmentions : mentions [.placeable (.select (.variableReference x) vs)] =
      [.selector x (.ofKeys (vs.map fun v ↦ v.key.literalKey)), .reference x] ++
        vs.flatMap fun v ↦ v.value.mentions := by
    rw [← Variant.listMentions_eq, mentions, Element.listMentions, Element.listMentions,
      List.append_nil]
    rfl
  rw [shape, hmentions, shape_run_variants hself, shape_run_selector]

/-- The shape of a pattern is made of the shapes of its parts. -/
theorem shape_compositional :
    (∀ p q : Pattern, shape (p ++ q) = p.shape.merge q.shape) ∧
      (∀ (x : String) (vs : List Variant),
        shape [.placeable (.select (.variableReference x) vs)] =
          (vs.map fun v ↦ v.value.shape).foldl Shape.merge
            (Table.insert ∅ x (.ofKeys (vs.map fun v ↦ v.key.literalKey)))) ∧
      (∀ r s t : Shape, (r.merge s).merge t = r.merge (s.merge t)) ∧
      ∀ s : Shape, Shape.merge ∅ s = s ∧ s.merge ∅ = s :=
  ⟨shape_append, shape_select, Shape.merge_assoc, fun s ↦ ⟨s.empty_merge, s.merge_empty⟩⟩

end Pattern

end FluentShapes

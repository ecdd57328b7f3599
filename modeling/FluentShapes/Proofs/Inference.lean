import FluentShapes.Proofs.Preorder
import FluentShapes.Proofs.Scope
import FluentShapes.Shape.Inference

/-!
# The shape of a pattern

The mentions of a pattern are what its expressions say one by one in pre-order
(`Pattern.mentions_eq`): a variable refers to itself, and a selection narrows its selector if that
is a variable.  Together with the law of scopes this gives both halves of a shape, the names with
their order and the type of each name, in terms of the syntax tree alone.
-/

namespace FluentShapes

/-! ## Mentions as a traversal -/

theorem Inline.listMentions_eq (es : List Inline) :
    Inline.listMentions es = es.flatMap Inline.mentions := by
  induction es with
  | nil => rfl
  | cons e rest ih => rw [listMentions, ih, List.flatMap_cons]

theorem NamedArgument.listMentions_eq (ns : List NamedArgument) :
    NamedArgument.listMentions ns = (ns.map value).flatMap Inline.mentions := by
  induction ns with
  | nil => rfl
  | cons n rest ih =>
      obtain ⟨name, e⟩ := n
      rw [listMentions, ih, List.map_cons, List.flatMap_cons, value]

theorem CallArguments.mentions_eq (a : CallArguments) :
    a.mentions = a.values.flatMap Inline.mentions := by
  obtain ⟨positional, named⟩ := a
  rw [mentions, Inline.listMentions_eq, NamedArgument.listMentions_eq, values, List.flatMap_append]
  rfl

theorem Element.listMentions_eq (p : Pattern) :
    Element.listMentions p = p.expressions.flatMap Expression.mentions := by
  induction p with
  | nil => rfl
  | cons a rest ih =>
      cases a with
      | text value => rw [listMentions, ih, Pattern.expressions_text]
      | placeable e => rw [listMentions, ih, Pattern.expressions_placeable, List.flatMap_cons]

theorem Variant.listMentions_eq (vs : List Variant) :
    Variant.listMentions vs = vs.flatMap fun v ↦ Pattern.mentions v.value := by
  induction vs with
  | nil => rfl
  | cons v rest ih =>
      obtain ⟨key, p, isDefault⟩ := v
      rw [listMentions, ih, List.flatMap_cons, value, Pattern.mentions]

namespace Expression

/-- What an expression says apart from what is inside it. -/
def ownMentions : Expression → List Mention
  | inline (.variableReference x) => [.reference x]
  | inline _ => []
  | select selector variants => selector.narrowing variants

theorem flatMap_mentions_inline (es : List Inline) :
    (es.map inline).flatMap mentions = es.flatMap Inline.mentions := by
  rw [List.flatMap_map]
  rfl

theorem mentions_eq_own (e : Expression) :
    e.mentions = e.ownMentions ++ e.children.flatMap mentions := by
  cases e with
  | inline i =>
      cases i with
      | functionReference name a =>
          rw [mentions, Inline.mentions, CallArguments.mentions_eq, ← flatMap_mentions_inline]
          rfl
      | termReference name attr arguments =>
          cases arguments with
          | none => rfl
          | some a =>
              rw [mentions, Inline.mentions, CallArguments.mentions_eq, ← flatMap_mentions_inline]
              rfl
      | placeable e => simp [mentions, Inline.mentions, ownMentions, children]
      | stringLiteral value | numberLiteral value | variableReference name
      | messageReference name attr => rfl
  | select selector variants =>
      have hvs : Variant.listMentions variants =
          (variants.flatMap fun v ↦ Pattern.expressions v.value).flatMap mentions := by
        rw [Variant.listMentions_eq, List.flatMap_assoc]
        simp only [Pattern.mentions, Element.listMentions_eq]
      rw [mentions, hvs, ownMentions, children, List.flatMap_cons, List.append_assoc]
      rfl

theorem mentions_eq_preorder (e : Expression) : e.mentions = e.preorder.flatMap ownMentions := by
  induction e using preorder.induct with
  | case1 e ih =>
      rw [mentions_eq_own, preorder_eq, List.flatMap_cons, List.flatMap_assoc]
      exact congrArg _ (List.flatMap_congr ih)

end Expression

theorem Pattern.mentions_eq (p : Pattern) :
    p.mentions = p.preorder.flatMap Expression.ownMentions := by
  rw [mentions, Element.listMentions_eq, preorder, List.flatMap_assoc]
  exact List.flatMap_congr fun e _ ↦ e.mentions_eq_preorder

theorem Pattern.records_mentions (p : Pattern) :
    (Scope.empty.run p.mentions).Records p.mentions := Scope.records_run p.mentions

/-! ## The names

A selection on a variable mentions it twice, once as its selector and once as a reference in the
selector.  Both come right after one another, so the order of first mention is that of the
references alone. -/

namespace Expression

/-- The name of a variable that is referred to. -/
def variableName? : Expression → Option String
  | inline (.variableReference x) => some x
  | _ => none

theorem variableName?_eq_some_iff (e : Expression) (x : String) :
    e.variableName? = some x ↔ e = inline (.variableReference x) := by
  constructor
  · intro h
    unfold variableName? at h
    split at h
    · cases h
      rfl
    · cases h
  · rintro rfl
    rfl

/-- The variables that an expression refers to, in pre-order and with repetitions. -/
def variableNames (e : Expression) : List String := e.preorder.filterMap variableName?

theorem variableNames_eq (e : Expression) :
    e.variableNames = e.variableName?.toList ++ e.children.flatMap variableNames := by
  have hflat : ∀ l : List Expression,
      (l.flatMap preorder).filterMap variableName? = l.flatMap variableNames := fun l ↦ by
    rw [List.filterMap_flatMap]
    rfl
  rw [variableNames, preorder_eq, List.filterMap_cons, hflat]
  cases e.variableName? <;> rfl

/-- A name that an expression itself mentions is a variable there or the first one inside it. -/
theorem eraseDups_ownMentions_append (e : Expression) :
    (e.ownMentions.map Mention.name ++ e.children.flatMap variableNames).eraseDups =
      e.variableNames.eraseDups := by
  rw [variableNames_eq]
  cases e with
  | inline i => cases i <;> rfl
  | select selector variants =>
      cases selector with
      | variableReference x =>
          have hx : (inline (.variableReference x)).variableNames = [x] := by
            rw [variableNames_eq]
            rfl
          rw [children, List.flatMap_cons, hx]
          exact eraseDups_cons_cons_self x _
      | stringLiteral _ | numberLiteral _ | functionReference _ _ | termReference _ _ _
      | messageReference _ _ | placeable _ => rfl

theorem eraseDups_names (e : Expression) :
    (e.mentions.map Mention.name).eraseDups = e.variableNames.eraseDups := by
  induction e using preorder.induct with
  | case1 e ih =>
      -- The children are compared up to repetitions, which is enough in a concatenation.
      rw [mentions_eq_own, List.map_append, List.map_flatMap, ← eraseDups_ownMentions_append]
      exact eraseDups_append_congr rfl (eraseDups_flatMap_congr ih)

end Expression

namespace Pattern

/-- The variables that a pattern refers to, in pre-order and with repetitions. -/
def variableNames (p : Pattern) : List String := p.preorder.filterMap Expression.variableName?

theorem variableNames_eq (p : Pattern) :
    p.variableNames = p.expressions.flatMap Expression.variableNames := by
  rw [variableNames, preorder, List.filterMap_flatMap]
  rfl

theorem mem_variableNames_iff (p : Pattern) (x : String) :
    x ∈ p.variableNames ↔ p.Contains (.inline (.variableReference x)) := by
  rw [variableNames, List.mem_filterMap, ← mem_preorder_iff_contains]
  simp only [Expression.variableName?_eq_some_iff, exists_eq_right]

theorem eraseDups_names (p : Pattern) :
    (p.mentions.map Mention.name).eraseDups = p.variableNames.eraseDups := by
  rw [mentions, Element.listMentions_eq, List.map_flatMap, variableNames_eq]
  exact eraseDups_flatMap_congr fun e _ ↦ e.eraseDups_names

theorem keys_shape (p : Pattern) : p.shape.keys = p.variableNames.eraseDups := by
  rw [shape, p.records_mentions.keys_eq, eraseDups_names]

theorem mem_names_iff (p : Pattern) (x : String) :
    x ∈ p.mentions.map Mention.name ↔ x ∈ p.variableNames := by
  rw [← List.mem_eraseDups, eraseDups_names, List.mem_eraseDups]

theorem shape_eq_empty_iff (p : Pattern) :
    p.shape = ∅ ↔ ∀ x, ¬ p.Contains (.inline (.variableReference x)) := by
  rw [← Table.keys_eq_nil_iff, keys_shape, List.eq_nil_iff_forall_not_mem]
  refine forall_congr' fun x ↦ not_congr ?_
  rw [List.mem_eraseDups, mem_variableNames_iff]

/-- A shape lists the variables that stand anywhere in the pattern, and nothing else, each once and
in the order of its first occurrence. -/
theorem shape_names (p : Pattern) :
    p.shape.keys = p.variableNames.eraseDups ∧ p.shape.keys.Nodup ∧
      ∀ x, x ∈ p.shape.keys ↔ p.Contains (.inline (.variableReference x)) := by
  refine ⟨p.keys_shape, p.shape.nodup, ?_⟩
  intro x
  rw [keys_shape, List.mem_eraseDups, mem_variableNames_iff]

end Pattern

/-! ## The types -/

namespace Expression

/-- Only a selection whose selector is `x` itself narrows `x`. -/
theorem first?_ownMentions_of_ne {e : Expression} {x : String}
    (h : ∀ vs, e ≠ select (.variableReference x) vs) : Mention.first? e.ownMentions x = none := by
  cases e with
  | inline i => cases i <;> rfl
  | select selector variants =>
      cases selector with
      | variableReference y =>
          have hy : x ≠ y := by
            rintro rfl
            exact h variants rfl
          exact Mention.first?_of_notMem (by simpa [ownMentions, Inline.narrowing] using hy)
      | stringLiteral _ | numberLiteral _ | functionReference _ _ | termReference _ _ _
      | messageReference _ _ | placeable _ => rfl

theorem first?_ownMentions_select (x : String) (variants : List Variant) :
    Mention.first? (select (.variableReference x) variants).ownMentions x =
      some (.ofKeys (variants.map fun v ↦ v.key.literalKey)) := by
  simp [Mention.first?, ownMentions, Inline.narrowing]

theorem first?_flatMap_of_notMem {l : List Expression} {x : String}
    (h : ∀ vs, select (.variableReference x) vs ∉ l) :
    Mention.first? (l.flatMap ownMentions) x = none := by
  induction l with
  | nil => rfl
  | cons e l ih =>
      have he : Mention.first? e.ownMentions x = none :=
        first?_ownMentions_of_ne fun vs hvs ↦ h vs (hvs ▸ List.mem_cons_self)
      have hl := ih fun vs hvs ↦ h vs (List.mem_cons_of_mem e hvs)
      rw [List.flatMap_cons, Mention.first?_append, he, hl, Option.or_none]

/-- Nothing after the first selection on `x` counts. -/
theorem first?_flatMap_of_first {before after : List Expression} {x : String}
    {variants : List Variant} (h : ∀ vs, select (.variableReference x) vs ∉ before) :
    Mention.first?
        ((before ++ select (.variableReference x) variants :: after).flatMap ownMentions) x =
      some (.ofKeys (variants.map fun v ↦ v.key.literalKey)) := by
  rw [List.flatMap_append, Mention.first?_append, first?_flatMap_of_notMem h, Option.none_or,
    List.flatMap_cons, Mention.first?_append, first?_ownMentions_select, Option.some_or]

end Expression

namespace Pattern

theorem get?_shape (p : Pattern) {x : String} (hx : x ∈ p.variableNames) :
    p.shape.get? x = some ((Mention.first? p.mentions x).getD .opaqueType) :=
  p.records_mentions.get?_eq x ((p.mem_names_iff x).mpr hx)

/-- The first selection on a variable in pre-order decides its type: the keys of the variants in
their order, each once.  What else is said about the variable before or after, in selections on it
that come later or in selectors that only contain it, changes nothing; without a selection on the
variable itself it stays opaque. -/
theorem shape_narrowing (p : Pattern) {x : String}
    (hx : p.Contains (.inline (.variableReference x))) :
    (∀ before variants after,
        p.preorder = before ++ .select (.variableReference x) variants :: after →
        (∀ vs, .select (.variableReference x) vs ∉ before) →
        ∃ keys : Distinct LiteralKey, p.shape.get? x = some (.union keys) ∧
          keys.toList = (variants.map fun v ↦ match v.key with
            | .identifier name => LiteralKey.string name
            | .number literal => LiteralKey.number literal).eraseDups) ∧
      ((∀ vs, ¬ p.Contains (.select (.variableReference x) vs)) →
        p.shape.get? x = some .opaqueType) := by
  have hget := p.get?_shape ((p.mem_variableNames_iff x).mpr hx)
  rw [mentions_eq] at hget
  constructor
  · intro before variants after hp hfirst
    rw [hp, Expression.first?_flatMap_of_first hfirst, Option.getD_some] at hget
    exact ⟨_, hget, Distinct.toList_ofList _⟩
  · intro hnone
    have hfirst := Expression.first?_flatMap_of_notMem fun vs hvs ↦
      hnone vs ((p.mem_preorder_iff_contains _).mp hvs)
    rw [hfirst, Option.getD_none] at hget
    exact hget

/-- Variants with a repeated key, the first of which selects on `n` again. -/
def nestedVariants : List Variant :=
  [.mk (.identifier "one")
      [.placeable (.select (.variableReference "n") [.mk (.identifier "few") [] true])] false,
    .mk (.number "1.0") [] false, .mk (.identifier "one") [.text "again"] true]

/-- A call with `n` as its argument, then a selection on `n`. -/
def nested : Pattern :=
  [.placeable (.inline (.functionReference "NUMBER" (.mk [.variableReference "n"] []))),
    .placeable (.select (.variableReference "n") nestedVariants)]

/-- The call, the inner selection and the repeated key leave no trace. -/
theorem shape_narrowing_nested :
    nested.Contains (.inline (.variableReference "n")) ∧
      ∃ keys : Distinct LiteralKey, nested.shape.get? "n" = some (.union keys) ∧
        keys.toList = [.string "one", .number "1.0"] := by
  have hx : nested.Contains (.inline (.variableReference "n")) :=
    ⟨_, List.mem_cons_self, .positional (.function _ _) List.mem_cons_self .self⟩
  have hp : nested.preorder =
      [.inline (.functionReference "NUMBER" (.mk [.variableReference "n"] [])),
        .inline (.variableReference "n")] ++
      .select (.variableReference "n") nestedVariants ::
        [.inline (.variableReference "n"),
          .select (.variableReference "n") [.mk (.identifier "few") [] true],
          .inline (.variableReference "n")] := by
    simp [nested, nestedVariants, preorder, expressions, Expression.preorder_eq,
      Expression.children, CallArguments.values, CallArguments.positional, CallArguments.named,
      Variant.value]
  obtain ⟨keys, hget, hkeys⟩ := (nested.shape_narrowing hx).1 _ _ _ hp (by simp)
  exact ⟨hx, keys, hget, hkeys.trans (by decide)⟩

end Pattern

end FluentShapes

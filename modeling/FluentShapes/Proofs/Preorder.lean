import FluentShapes.Resource.Basic
import Mathlib.Data.List.Basic

/-!
# The expressions inside a pattern

`Expression.children` lists what stands directly inside an expression, from left to right: the
arguments of a call, the positional ones before the named ones; what a placeable encloses; the
selector of a selection and then the placeables of its variants.  `Expression.preorder` goes down
from there, an expression before what is inside it.

`Expression.Within` says the same without an order, by the places where an expression can stand.
The two agree (`Expression.mem_preorder_iff`), so the traversal misses no place and invents none.
-/

namespace FluentShapes

/-- The arguments of a call of a function or of a term. -/
inductive Inline.Calls : Inline → CallArguments → Prop
  | function (name : String) (a : CallArguments) : Calls (.functionReference name a) a
  | term (name : String) (attr : Option String) (a : CallArguments) :
      Calls (.termReference name attr (some a)) a

/-- The values of the arguments of a call, the positional ones first. -/
def CallArguments.values (a : CallArguments) : List Inline :=
  a.positional ++ a.named.map NamedArgument.value

namespace Pattern

/-- The expressions in the placeables of a pattern. -/
def expressions (p : Pattern) : List Expression :=
  p.filterMap fun
    | .text _ => none
    | .placeable e => some e

theorem mem_expressions_iff (p : Pattern) (e : Expression) :
    e ∈ p.expressions ↔ .placeable e ∈ p := by
  rw [expressions, List.mem_filterMap]
  constructor
  · rintro ⟨a, ha, h⟩
    cases a with
    | text value => cases h
    | placeable c =>
        cases h
        exact ha
  · intro h
    exact ⟨.placeable e, h, rfl⟩

@[simp] theorem expressions_text (value : String) (p : Pattern) :
    expressions (.text value :: p) = p.expressions := rfl

@[simp] theorem expressions_placeable (e : Expression) (p : Pattern) :
    expressions (.placeable e :: p) = e :: p.expressions := rfl

theorem expressions_append (p q : Pattern) :
    expressions (p ++ q) = p.expressions ++ q.expressions := List.filterMap_append

end Pattern

namespace Expression

/-- The expressions directly inside an expression, from left to right. -/
def children : Expression → List Expression
  | inline (.functionReference _ arguments) => arguments.values.map inline
  | inline (.termReference _ _ (some arguments)) => arguments.values.map inline
  | inline (.placeable e) => [e]
  | inline (.stringLiteral _) | inline (.numberLiteral _) | inline (.variableReference _)
  | inline (.messageReference ..) | inline (.termReference _ _ none) => []
  | select selector variants =>
      inline selector :: variants.flatMap fun v ↦ Pattern.expressions v.value

/-! ## Going down ends -/

theorem sizeOf_lt_of_mem_values {e : Inline} {a : CallArguments} (h : e ∈ a.values) :
    sizeOf e < sizeOf a := by
  obtain ⟨positional, named⟩ := a
  rw [CallArguments.values, List.mem_append, List.mem_map] at h
  rw [CallArguments.mk.sizeOf_spec]
  rcases h with h | ⟨n, hn, rfl⟩
  · have he : sizeOf e < sizeOf positional := List.sizeOf_lt_of_mem h
    omega
  · have hn' : sizeOf n < sizeOf named := List.sizeOf_lt_of_mem hn
    obtain ⟨name, value⟩ := n
    rw [NamedArgument.mk.sizeOf_spec] at hn'
    rw [NamedArgument.value]
    omega

theorem sizeOf_lt_of_mem_expressions {e : Expression} {p : Pattern} (h : e ∈ p.expressions) :
    sizeOf e < sizeOf p := by
  have hp := List.sizeOf_lt_of_mem ((Pattern.mem_expressions_iff p e).mp h)
  rw [Element.placeable.sizeOf_spec] at hp
  omega

theorem sizeOf_lt_of_mem_children {c e : Expression} (h : c ∈ e.children) :
    sizeOf c < sizeOf e := by
  cases e with
  | inline i =>
      rw [inline.sizeOf_spec]
      cases i with
      | functionReference name arguments =>
          obtain ⟨v, hv, rfl⟩ := List.mem_map.mp h
          have hlt := sizeOf_lt_of_mem_values hv
          rw [inline.sizeOf_spec, Inline.functionReference.sizeOf_spec]
          omega
      | termReference name attr arguments =>
          cases arguments with
          | none => cases h
          | some arguments =>
              obtain ⟨v, hv, rfl⟩ := List.mem_map.mp h
              have hlt := sizeOf_lt_of_mem_values hv
              rw [inline.sizeOf_spec, Inline.termReference.sizeOf_spec, Option.some.sizeOf_spec]
              omega
      | placeable e =>
          cases List.mem_singleton.mp h
          rw [Inline.placeable.sizeOf_spec]
          omega
      | stringLiteral value | numberLiteral value | variableReference name
      | messageReference name attr => cases h
  | select selector variants =>
      rw [children, List.mem_cons, List.mem_flatMap] at h
      rw [select.sizeOf_spec]
      rcases h with rfl | ⟨v, hv, hc⟩
      · have hpos : 1 ≤ sizeOf variants := by cases variants <;> simp [Nat.add_assoc]
        rw [inline.sizeOf_spec]
        omega
      · have hlt := List.sizeOf_lt_of_mem hv
        have hc' := sizeOf_lt_of_mem_expressions hc
        obtain ⟨key, value, isDefault⟩ := v
        rw [Variant.mk.sizeOf_spec] at hlt
        rw [Variant.value] at hc'
        omega

/-- An expression and all that is inside it, from left to right, the outer before the inner. -/
def preorder (e : Expression) : List Expression :=
  e :: e.children.attach.flatMap fun ⟨c, _⟩ ↦ preorder c
termination_by sizeOf e
decreasing_by exact sizeOf_lt_of_mem_children ‹_›

theorem preorder_eq (e : Expression) : e.preorder = e :: e.children.flatMap preorder := by
  rw [preorder]
  simp

/-! ## Where an expression can stand -/

/-- `d` is `e` or stands somewhere inside it. -/
inductive Within (d : Expression) : Expression → Prop
  | self : Within d d
  | placeable {e : Expression} : Within d e → Within d (.inline (.placeable e))
  | positional {i v : Inline} {a : CallArguments} : i.Calls a → v ∈ a.positional →
      Within d (.inline v) → Within d (.inline i)
  | named {i : Inline} {n : NamedArgument} {a : CallArguments} : i.Calls a → n ∈ a.named →
      Within d (.inline n.value) → Within d (.inline i)
  | selector {s : Inline} {vs : List Variant} : Within d (.inline s) → Within d (.select s vs)
  | variant {s : Inline} {vs : List Variant} {v : Variant} {e : Expression} : v ∈ vs →
      .placeable e ∈ v.value → Within d e → Within d (.select s vs)

theorem children_of_calls {i : Inline} {a : CallArguments} (h : i.Calls a) :
    (inline i).children = a.values.map inline := by
  cases h <;> rfl

theorem Within.of_argument {d : Expression} {i v : Inline} {a : CallArguments} (h : i.Calls a)
    (hv : v ∈ a.values) (hd : d.Within (.inline v)) : d.Within (.inline i) := by
  rw [CallArguments.values, List.mem_append, List.mem_map] at hv
  rcases hv with hv | ⟨n, hn, rfl⟩
  · exact .positional h hv hd
  · exact .named h hn hd

theorem Within.of_child {c d e : Expression} (h : c ∈ e.children) (hd : d.Within c) :
    d.Within e := by
  cases e with
  | inline i =>
      cases i with
      | functionReference name a =>
          obtain ⟨v, hv, rfl⟩ := List.mem_map.mp h
          exact .of_argument (.function name a) hv hd
      | termReference name attr arguments =>
          cases arguments with
          | none => cases h
          | some a =>
              obtain ⟨v, hv, rfl⟩ := List.mem_map.mp h
              exact .of_argument (.term name attr a) hv hd
      | placeable e =>
          cases List.mem_singleton.mp h
          exact .placeable hd
      | stringLiteral value | numberLiteral value | variableReference name
      | messageReference name attr => cases h
  | select s vs =>
      rw [children, List.mem_cons, List.mem_flatMap] at h
      rcases h with rfl | ⟨v, hv, hc⟩
      · exact .selector hd
      · exact .variant hv ((Pattern.mem_expressions_iff _ _).mp hc) hd

theorem mem_preorder_self (e : Expression) : e ∈ e.preorder := by
  rw [preorder_eq]
  exact List.mem_cons_self

theorem mem_preorder_of_child {c d e : Expression} (h : c ∈ e.children) (hd : d ∈ c.preorder) :
    d ∈ e.preorder := by
  rw [preorder_eq]
  exact List.mem_cons_of_mem _ (List.mem_flatMap.mpr ⟨c, h, hd⟩)

theorem within_of_mem_preorder {d e : Expression} (h : d ∈ e.preorder) : d.Within e := by
  induction e using preorder.induct with
  | case1 e ih =>
      rw [preorder_eq, List.mem_cons, List.mem_flatMap] at h
      rcases h with rfl | ⟨c, hc, hd⟩
      · exact .self
      · exact .of_child hc (ih c hc hd)

theorem mem_preorder_of_within {d e : Expression} (h : d.Within e) : d ∈ e.preorder := by
  induction h with
  | self => exact mem_preorder_self d
  | placeable _ ih => exact mem_preorder_of_child (List.mem_singleton.mpr rfl) ih
  | positional h hv _ ih =>
      refine mem_preorder_of_child ?_ ih
      rw [children_of_calls h]
      exact List.mem_map_of_mem (List.mem_append_left _ hv)
  | named h hn _ ih =>
      refine mem_preorder_of_child ?_ ih
      rw [children_of_calls h]
      exact List.mem_map_of_mem (List.mem_append_right _ (List.mem_map_of_mem hn))
  | selector _ ih => exact mem_preorder_of_child List.mem_cons_self ih
  | variant hv he _ ih =>
      refine mem_preorder_of_child (List.mem_cons_of_mem _ ?_) ih
      exact List.mem_flatMap.mpr ⟨_, hv, (Pattern.mem_expressions_iff _ _).mpr he⟩

theorem mem_preorder_iff (d e : Expression) : d ∈ e.preorder ↔ d.Within e :=
  ⟨within_of_mem_preorder, mem_preorder_of_within⟩

end Expression

namespace Pattern

/-- The expressions of a pattern at any depth, from left to right, the outer before the inner. -/
def preorder (p : Pattern) : List Expression := p.expressions.flatMap Expression.preorder

theorem preorder_append (p q : Pattern) : preorder (p ++ q) = p.preorder ++ q.preorder := by
  rw [preorder, expressions_append, List.flatMap_append]
  rfl

/-- `d` stands somewhere in the pattern. -/
def Contains (p : Pattern) (d : Expression) : Prop := ∃ e, .placeable e ∈ p ∧ d.Within e

theorem mem_preorder_iff_contains (p : Pattern) (d : Expression) :
    d ∈ p.preorder ↔ p.Contains d := by
  rw [preorder, List.mem_flatMap]
  simp only [mem_expressions_iff, Expression.mem_preorder_iff, Contains]

end Pattern

end FluentShapes

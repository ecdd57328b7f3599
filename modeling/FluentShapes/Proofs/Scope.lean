import FluentShapes.Proofs.Insertion
import FluentShapes.Shape.Scope

/-!
# What a scope records

A scope holds two collections, the shape and the names that were selected on.  `Scope.Records` says
what both have to be after a list of mentions; one mention keeps it, hence so does every run.  No
assumption is made on the candidates: a selection may as well offer the opaque type or no key at
all, so what was selected on cannot be read off the shape.
-/

namespace FluentShapes

namespace Mention

@[simp] theorem name_reference (x : String) : (reference x).name = x := rfl

@[simp] theorem name_selector (x : String) (c : ArgumentType) : (selector x c).name = x := rfl

/-- The candidate of a mention, if it is a selection on `x`. -/
def candidate? (x : String) : Mention → Option ArgumentType
  | reference _ => none
  | selector name candidate => if name = x then some candidate else none

@[simp] theorem candidate?_reference (x name : String) :
    (reference name).candidate? x = none := rfl

@[simp] theorem candidate?_selector_self (x : String) (c : ArgumentType) :
    (selector x c).candidate? x = some c := if_pos rfl

theorem candidate?_of_name_ne {m : Mention} {x : String} (h : x ≠ m.name) :
    m.candidate? x = none := by
  cases m with
  | reference name => rfl
  | selector name c => exact if_neg fun e ↦ h e.symm

/-- The candidate of the first selection on `x`. -/
def first? (ms : List Mention) (x : String) : Option ArgumentType := ms.findSome? (candidate? x)

theorem first?_append (ms ns : List Mention) (x : String) :
    first? (ms ++ ns) x = (first? ms x).or (first? ns x) := List.findSome?_append

theorem first?_concat (ms : List Mention) (m : Mention) (x : String) :
    first? (ms ++ [m]) x = (first? ms x).or (m.candidate? x) := by
  rw [first?_append]
  simp [first?]

theorem first?_concat_of_name_ne (ms : List Mention) {m : Mention} {x : String}
    (h : x ≠ m.name) : first? (ms ++ [m]) x = first? ms x := by
  rw [first?_concat, candidate?_of_name_ne h, Option.or_none]

theorem first?_of_notMem {ms : List Mention} {x : String} (h : x ∉ ms.map name) :
    first? ms x = none := by
  rw [first?, List.findSome?_eq_none_iff]
  intro m hm
  exact candidate?_of_name_ne fun e ↦ h (List.mem_map.mpr ⟨m, hm, e.symm⟩)

theorem candidate?_eq_some_iff {m : Mention} {x : String} {c : ArgumentType} :
    m.candidate? x = some c ↔ m = selector x c := by
  cases m with
  | reference name => simp
  | selector name candidate => simp [candidate?]

theorem isSome_first?_iff {ms : List Mention} {x : String} :
    (first? ms x).isSome = true ↔ ∃ c, selector x c ∈ ms := by
  rw [first?, List.findSome?_isSome_iff]
  constructor
  · rintro ⟨m, hm, hsome⟩
    obtain ⟨c, hc⟩ := Option.isSome_iff_exists.mp hsome
    exact ⟨c, candidate?_eq_some_iff.mp hc ▸ hm⟩
  · rintro ⟨c, hc⟩
    exact ⟨selector x c, hc, by rw [candidate?_selector_self]; rfl⟩

end Mention

namespace Scope

theorem isSelector_push (s : Scope) (shape : Shape) (name x : String) :
    isSelector ⟨shape, s.selectors.push name⟩ x = (s.isSelector x || decide (x = name)) := by
  rw [isSelector, isSelector, Distinct.toList_push]
  by_cases hn : name ∈ s.selectors.toList
  · by_cases hx : x = name <;> simp [hn, hx]
  · simp [hn]

/-- The scope knows the names that are mentioned in the order of their first mention, the first
selection on each, and which of them were selected on. -/
structure Records (s : Scope) (ms : List Mention) : Prop where
  keys_eq : s.shape.keys = (ms.map Mention.name).eraseDups
  isSelector_eq : ∀ x, s.isSelector x = (Mention.first? ms x).isSome
  get?_eq : ∀ x ∈ ms.map Mention.name,
    s.shape.get? x = some ((Mention.first? ms x).getD .opaqueType)

namespace Records

theorem empty : Records Scope.empty [] where
  keys_eq := rfl
  isSelector_eq _ := rfl
  get?_eq _ hx := by cases hx

variable {s : Scope} {ms : List Mention}

theorem mem_keys_iff (h : s.Records ms) (x : String) :
    x ∈ s.shape.keys ↔ x ∈ ms.map Mention.name := by
  rw [h.keys_eq, List.mem_eraseDups]

theorem get?_eq_none (h : s.Records ms) {x : String} (hx : x ∉ ms.map Mention.name) :
    s.shape.get? x = none := by
  rw [Table.get?_eq_none_iff, h.mem_keys_iff]
  exact hx

/-- A mention that says nothing new leaves the scope as it is. -/
theorem unchanged (h : s.Records ms) {m : Mention} (hn : m.name ∈ ms.map Mention.name)
    (hfirst : Mention.first? (ms ++ [m]) m.name = Mention.first? ms m.name) :
    s.Records (ms ++ [m]) := by
  have hsame : ∀ x, Mention.first? (ms ++ [m]) x = Mention.first? ms x := by
    intro x
    by_cases hx : x = m.name
    · rw [hx, hfirst]
    · exact Mention.first?_concat_of_name_ne ms hx
  refine ⟨?_, ?_, ?_⟩
  · rw [List.map_append, List.map_singleton, eraseDups_concat, if_pos hn, h.keys_eq]
  · intro x
    rw [hsame, h.isSelector_eq]
  · intro x hx
    rw [List.map_append, List.mem_append, List.map_singleton, List.mem_singleton] at hx
    rw [hsame]
    rcases hx with hx | rfl
    · exact h.get?_eq x hx
    · exact h.get?_eq _ hn

/-- A mention that gives its name a type: no other name moves or changes. -/
theorem inserted (h : s.Records ms) (m : Mention) (selectors : Distinct String)
    (hsel : ∀ x, isSelector ⟨s.shape, selectors⟩ x = (Mention.first? (ms ++ [m]) x).isSome) :
    Records ⟨s.shape.insert m.name ((Mention.first? (ms ++ [m]) m.name).getD .opaqueType),
      selectors⟩ (ms ++ [m]) := by
  refine ⟨?_, hsel, ?_⟩
  · rw [Table.keys_insert, List.map_append, List.map_singleton, eraseDups_concat]
    simp only [h.keys_eq, List.mem_eraseDups]
  · intro x hx
    rw [List.map_append, List.mem_append, List.map_singleton, List.mem_singleton] at hx
    rw [Table.get?_insert]
    by_cases hxm : x = m.name
    · rw [if_pos hxm, hxm]
    · rw [if_neg hxm, Mention.first?_concat_of_name_ne ms hxm]
      exact h.get?_eq x (hx.resolve_right hxm)

theorem reference (h : s.Records ms) (name : String) :
    (s.reference name).Records (ms ++ [.reference name]) := by
  have hfirst : ∀ x, Mention.first? (ms ++ [.reference name]) x = Mention.first? ms x := by
    intro x
    rw [Mention.first?_concat, Mention.candidate?_reference, Option.or_none]
  unfold Scope.reference
  split
  · rename_i hc
    have hn : name ∈ ms.map Mention.name :=
      (h.mem_keys_iff name).mp ((Table.contains_iff _ _).mp hc)
    exact h.unchanged hn (hfirst name)
  · rename_i hc
    have hn : name ∉ ms.map Mention.name := fun e ↦
      hc ((Table.contains_iff _ _).mpr ((h.mem_keys_iff name).mpr e))
    have hins := h.inserted (.reference name) s.selectors fun x ↦ by
      rw [hfirst, ← h.isSelector_eq]
    rwa [hfirst, Mention.name_reference, Mention.first?_of_notMem hn, Option.getD_none] at hins

theorem selector (h : s.Records ms) (name : String) (candidate : ArgumentType) :
    (s.selector name candidate).Records (ms ++ [.selector name candidate]) := by
  unfold Scope.selector
  split
  · rename_i hc
    -- An earlier selection on the name exists, and its candidate stays the first one.
    obtain ⟨c, hfirst⟩ := Option.isSome_iff_exists.mp ((h.isSelector_eq name).symm.trans hc)
    have hn : name ∈ ms.map Mention.name := by
      by_contra hn
      rw [Mention.first?_of_notMem hn] at hfirst
      cases hfirst
    refine h.unchanged hn ?_
    rw [Mention.first?_concat, Mention.name_selector, hfirst, Option.some_or]
  · rename_i hc
    have hfirst : Mention.first? ms name = none := by
      rw [← Option.not_isSome_iff_eq_none, ← h.isSelector_eq]
      exact hc
    have hself : Mention.first? (ms ++ [.selector name candidate]) name = some candidate := by
      rw [Mention.first?_concat, hfirst, Option.none_or, Mention.candidate?_selector_self]
    have hother : ∀ x, x ≠ name →
        Mention.first? (ms ++ [.selector name candidate]) x = Mention.first? ms x := fun x hx ↦
      Mention.first?_concat_of_name_ne ms hx
    have hins := h.inserted (.selector name candidate) (s.selectors.push name) fun x ↦ by
      rw [isSelector_push, h.isSelector_eq]
      by_cases hx : x = name
      · simp [hx, hself]
      · simp [hx, hother x hx]
    rwa [Mention.name_selector, hself, Option.getD_some] at hins

/-- One mention. -/
theorem mention (h : s.Records ms) (m : Mention) : (s.mention m).Records (ms ++ [m]) := by
  cases m with
  | reference name => exact h.reference name
  | selector name candidate => exact h.selector name candidate

theorem run (h : s.Records ms) (ns : List Mention) : (s.run ns).Records (ms ++ ns) := by
  induction ns generalizing s ms with
  | nil => simpa using h
  | cons m ns ih =>
      rw [run_cons, ← List.singleton_append, ← List.append_assoc]
      exact ih (h.mention m)

end Records

/-- A run from the empty scope records the mentions of the run. -/
theorem records_run (ms : List Mention) : (empty.run ms).Records ms := Records.empty.run ms

/-! ## The law of a run -/

section Run

variable (ms ns : List Mention) {x : String}

/-- Every name is looked up as the first selection on it has it. -/
theorem get?_run (x : String) :
    (empty.run ms).shape.get? x =
      (Mention.first? ms x).or (if x ∈ ms.map Mention.name then some .opaqueType else none) := by
  have hrecords := records_run ms
  by_cases hx : x ∈ ms.map Mention.name
  · rw [if_pos hx, Option.or_some, hrecords.get?_eq x hx]
  · rw [if_neg hx, Option.or_none, Mention.first?_of_notMem hx, hrecords.get?_eq_none hx]

theorem isSelector_run_iff :
    (empty.run ms).isSelector x = true ↔ ∃ c, Mention.selector x c ∈ ms := by
  rw [(records_run ms).isSelector_eq, Mention.isSome_first?_iff]

/-- Later mentions only add names behind those that are there. -/
theorem prefix_keys_run :
    (empty.run ms).shape.keys <+: ((empty.run ms).run ns).shape.keys := by
  rw [← run_append, (records_run ms).keys_eq, (records_run (ms ++ ns)).keys_eq, List.map_append,
    eraseDups_append_eq]
  exact List.prefix_append _ _

/-- What has been selected on keeps its type. -/
theorem get?_run_of_isSelector (h : (empty.run ms).isSelector x = true) :
    ((empty.run ms).run ns).shape.get? x = (empty.run ms).shape.get? x := by
  rw [(records_run ms).isSelector_eq] at h
  obtain ⟨c, hc⟩ := Option.isSome_iff_exists.mp h
  rw [← run_append, get?_run, get?_run, Mention.first?_append, hc]
  rfl

end Run

/-- After any run of a new scope, the shape has the names that were mentioned in the order of their
first mention, each with the candidate of the first selection on it, or opaque if there was none.
The selectors are the names that were selected on.  Whatever follows, they keep their types, and all
names keep their positions. -/
theorem run_first_selections (ms : List Mention) :
    (empty.run ms).shape.keys = (ms.map Mention.name).eraseDups ∧
      (∀ x, (empty.run ms).shape.get? x = (ms.findSome? (Mention.candidate? x)).or
        (if x ∈ ms.map Mention.name then some .opaqueType else none)) ∧
      (∀ x, (empty.run ms).isSelector x = true ↔ ∃ c, Mention.selector x c ∈ ms) ∧
      (∀ x, (empty.run ms).isSelector x = true → x ∈ (empty.run ms).shape.keys) ∧
      ∀ ns, (empty.run ms).shape.keys <+: ((empty.run ms).run ns).shape.keys ∧
        ∀ x, (empty.run ms).isSelector x = true →
          ((empty.run ms).run ns).shape.get? x = (empty.run ms).shape.get? x := by
  refine ⟨(records_run ms).keys_eq, get?_run ms, fun x ↦ isSelector_run_iff ms, ?_, ?_⟩
  · intro x hx
    obtain ⟨c, hc⟩ := (isSelector_run_iff ms).mp hx
    exact ((records_run ms).mem_keys_iff x).mpr (List.mem_map.mpr ⟨.selector x c, hc, rfl⟩)
  · intro ns
    exact ⟨prefix_keys_run ms ns, fun x hx ↦ get?_run_of_isSelector ms ns hx⟩

/-- A selection that offers no key at all still is the first one. -/
theorem run_first_selections_noKeys :
    (empty.run [.reference "a", .selector "n" (.ofKeys [])]).isSelector "n" = true ∧
      ((empty.run [.reference "a", .selector "n" (.ofKeys [])]).run
        [.selector "a" .opaqueType, .selector "n" (.ofKeys [.string "one"])]).shape.get? "n" =
          some (.ofKeys []) := by
  obtain ⟨-, hget, hiff, -, hlater⟩ :=
    run_first_selections [.reference "a", .selector "n" (.ofKeys [])]
  have hselector := (hiff "n").mpr ⟨.ofKeys [], by simp⟩
  refine ⟨hselector, ?_⟩
  rw [(hlater _).2 "n" hselector, hget]
  rfl

end Scope

end FluentShapes

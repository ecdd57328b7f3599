/-! # Lists without repetition -/

namespace FluentShapes

universe u

/-- A list whose members are pairwise different. -/
structure Distinct (α : Type u) where
  toList : List α
  nodup : toList.Nodup
deriving DecidableEq

namespace Distinct

variable {α : Type u} [DecidableEq α]

def empty : Distinct α := ⟨[], List.nodup_nil⟩

instance : EmptyCollection (Distinct α) := ⟨empty⟩

/-- Append a member unless it is already there. -/
def push (s : Distinct α) (a : α) : Distinct α :=
  if h : a ∈ s.toList then s
  else ⟨s.toList ++ [a], by
    rw [List.nodup_append]
    refine ⟨s.nodup, by simp, ?_⟩
    intro b hb c hc e
    simp only [List.mem_singleton] at hc
    exact h (hc ▸ e ▸ hb)⟩

/-- Keep the first occurrence of each member. -/
def ofList (l : List α) : Distinct α := l.foldl push empty

theorem toList_push (s : Distinct α) (a : α) :
    (s.push a).toList = if a ∈ s.toList then s.toList else s.toList ++ [a] := by
  unfold push
  split <;> simp_all

end Distinct

end FluentShapes

/-! # Tables in insertion order -/

namespace FluentShapes

universe u v

/-- A finite map that remembers the order in which its keys were first inserted. -/
structure Table (κ : Type u) (ν : Type v) where
  entries : List (κ × ν)
  nodup : (entries.map Prod.fst).Nodup
deriving DecidableEq

namespace Table

variable {κ : Type u} {ν : Type v}

def empty : Table κ ν := ⟨[], by simp⟩

instance : EmptyCollection (Table κ ν) := ⟨empty⟩

instance : Inhabited (Table κ ν) := ⟨empty⟩

def keys (t : Table κ ν) : List κ := t.entries.map Prod.fst

def size (t : Table κ ν) : Nat := t.entries.length

def isEmpty (t : Table κ ν) : Bool := t.entries.isEmpty

/-- The pairs that satisfy `p`, in their order. -/
def filter (t : Table κ ν) (p : κ × ν → Bool) : Table κ ν :=
  ⟨t.entries.filter p, t.nodup.sublist (List.filter_sublist.map _)⟩

@[simp] theorem keys_empty : (empty : Table κ ν).keys = [] := rfl

variable [DecidableEq κ]

/-- Replace the value of `k` where it stands, or append the pair if `k` is new. -/
def put (k : κ) (v : ν) : List (κ × ν) → List (κ × ν)
  | [] => [(k, v)]
  | (j, w) :: rest => if j = k then (j, v) :: rest else (j, w) :: put k v rest

theorem keys_put (k : κ) (v : ν) (l : List (κ × ν)) :
    (put k v l).map Prod.fst =
      if k ∈ l.map Prod.fst then l.map Prod.fst else l.map Prod.fst ++ [k] := by
  induction l with
  | nil => simp [put]
  | cons p rest ih =>
      obtain ⟨j, w⟩ := p
      by_cases h : j = k
      · simp [put, h]
      · have h' : ¬ k = j := fun e ↦ h e.symm
        by_cases hk : k ∈ rest.map Prod.fst <;> simp_all [put]

theorem nodup_put (k : κ) (v : ν) {l : List (κ × ν)} (h : (l.map Prod.fst).Nodup) :
    ((put k v l).map Prod.fst).Nodup := by
  rw [keys_put]
  split
  · exact h
  · rename_i hk
    rw [List.nodup_append]
    refine ⟨h, by simp, ?_⟩
    intro a ha b hb e
    simp only [List.mem_singleton] at hb
    exact hk (hb ▸ e ▸ ha)

/-- `put`, with the value that `k` had. -/
def exchange (k : κ) (v : ν) : List (κ × ν) → Option ν × List (κ × ν)
  | [] => (none, [(k, v)])
  | (j, w) :: rest =>
      if j = k then (some w, (j, v) :: rest)
      else
        let exchanged := exchange k v rest
        (exchanged.1, (j, w) :: exchanged.2)

theorem exchange_snd (k : κ) (v : ν) (l : List (κ × ν)) : (exchange k v l).2 = put k v l := by
  induction l with
  | nil => rfl
  | cons p rest ih =>
      obtain ⟨j, w⟩ := p
      by_cases h : j = k <;> simp [exchange, put, h, ih]

def get? (t : Table κ ν) (k : κ) : Option ν := t.entries.lookup k

def contains (t : Table κ ν) (k : κ) : Bool := decide (k ∈ t.keys)

/-- A key that is already there keeps its position and takes the new value. -/
def insert (t : Table κ ν) (k : κ) (v : ν) : Table κ ν :=
  ⟨put k v t.entries, nodup_put k v t.nodup⟩

/-- Insert a pair and return the value that it replaces. -/
def getThenInsert? (t : Table κ ν) (k : κ) (v : ν) : Option ν × Table κ ν :=
  let exchanged := exchange k v t.entries
  (exchanged.1, ⟨exchanged.2, exchange_snd k v t.entries ▸ nodup_put k v t.nodup⟩)

/-- Insert the pairs one after another. -/
def ofList (l : List (κ × ν)) : Table κ ν :=
  l.foldl (fun t p ↦ t.insert p.1 p.2) empty

theorem keys_insert (t : Table κ ν) (k : κ) (v : ν) :
    (t.insert k v).keys = if k ∈ t.keys then t.keys else t.keys ++ [k] :=
  keys_put k v t.entries

end Table

end FluentShapes

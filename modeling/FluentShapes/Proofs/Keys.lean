import FluentShapes.Proofs.Index

/-!
# Number keys and string keys

A text that does not show the kind of a key can only be read back with string keys.  `stringKeys`
is what becomes of a type, a shape and an index then: two keys with the same text become one, where
the first of them stood.  Nothing changes exactly if there was no number key.
-/

namespace FluentShapes

namespace ArgumentType

def HasNumberKey (type : ArgumentType) : Prop := ∃ text, .number text ∈ type.keys

/-- The type with string keys of the same texts. -/
def stringKeys : ArgumentType → ArgumentType
  | opaqueType => opaqueType
  | union keys => ofKeys (keys.toList.map fun key ↦ .string key.text)

theorem not_hasNumberKey_ofKeys {keys : List LiteralKey} (h : ∀ text, .number text ∉ keys) :
    ¬ (ofKeys keys).HasNumberKey := by
  rintro ⟨text, hmem⟩
  rw [ofKeys, ArgumentType.keys, Distinct.toList_ofList, List.mem_eraseDups] at hmem
  exact h text hmem

theorem not_hasNumberKey_opaqueType : ¬ opaqueType.HasNumberKey := by
  rintro ⟨text, hmem⟩
  cases hmem

theorem not_hasNumberKey_stringKeys (type : ArgumentType) : ¬ type.stringKeys.HasNumberKey := by
  cases type with
  | opaqueType => exact not_hasNumberKey_opaqueType
  | union keys => exact not_hasNumberKey_ofKeys (by simp)

theorem stringKeys_eq_self {type : ArgumentType} (h : ¬ type.HasNumberKey) :
    type.stringKeys = type := by
  cases type with
  | opaqueType => rfl
  | union keys =>
      have hkeys : keys.toList.map (fun key ↦ LiteralKey.string key.text) = keys.toList := by
        refine (List.map_congr_left fun key hkey ↦ ?_).trans keys.toList.map_id
        cases key with
        | string text => rfl
        | number text => exact absurd ⟨text, hkey⟩ h
      rw [stringKeys, hkeys, ofKeys, Distinct.ofList_toList]

end ArgumentType

namespace Shape

def HasNumberKey (s : Shape) : Prop := ∃ x type, (x, type) ∈ s.entries ∧ type.HasNumberKey

def stringKeys (s : Shape) : Shape := s.mapValues ArgumentType.stringKeys

theorem not_hasNumberKey_stringKeys (s : Shape) : ¬ s.stringKeys.HasNumberKey := by
  rintro ⟨x, type, hmem, hnumber⟩
  obtain ⟨type, -, rfl⟩ := (Table.mem_mapValues_iff _ s x type).mp hmem
  exact type.not_hasNumberKey_stringKeys hnumber

theorem stringKeys_eq_self {s : Shape} (h : ¬ s.HasNumberKey) : s.stringKeys = s :=
  Table.mapValues_eq_self fun x type hmem ↦
    ArgumentType.stringKeys_eq_self fun hnumber ↦ h ⟨x, type, hmem, hnumber⟩

end Shape

namespace Index

def HasNumberKey (i : Index) : Prop := ∃ id s, (id, some s) ∈ i.entries ∧ s.HasNumberKey

def stringKeys (i : Index) : Index := i.mapValues (Option.map Shape.stringKeys)

theorem not_hasNumberKey_stringKeys (i : Index) : ¬ i.stringKeys.HasNumberKey := by
  rintro ⟨id, s, hmem, hnumber⟩
  obtain ⟨entry, -, hentry⟩ := (Table.mem_mapValues_iff _ i id (some s)).mp hmem
  obtain ⟨s, -, rfl⟩ := Option.map_eq_some_iff.mp hentry
  exact s.not_hasNumberKey_stringKeys hnumber

theorem stringKeys_eq_self {i : Index} (h : ¬ i.HasNumberKey) : i.stringKeys = i := by
  refine Table.mapValues_eq_self fun id entry hmem ↦ ?_
  cases entry with
  | none => rfl
  | some s =>
      exact congrArg some (Shape.stringKeys_eq_self fun hnumber ↦ h ⟨id, s, hmem, hnumber⟩)

theorem stringKeys_eq_self_iff (i : Index) : i.stringKeys = i ↔ ¬ i.HasNumberKey := by
  constructor
  · intro h
    rw [← h]
    exact i.not_hasNumberKey_stringKeys
  · exact stringKeys_eq_self

end Index

end FluentShapes

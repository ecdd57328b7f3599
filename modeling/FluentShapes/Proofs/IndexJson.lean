import FluentShapes.Index.Json
import FluentShapes.Proofs.Json
import FluentShapes.Proofs.Keys

/-!
# Indexes read back from JSON

An index is written as nested objects.  Reading undoes this level by level, up to the kind of the
keys, which is not written.  Both directions go through one lemma about tables as objects: what is
written is read back with every value changed (`Table.decode_encode`), and whatever is read holds
only values that were read (`Table.exists_of_mem_decode`).
-/

namespace FluentShapes

section Decoding

variable {α β γ : Type}

theorem mapM_map_eq_some {f : α → β} {g : β → Option γ} {h : α → γ} {l : List α}
    (hstep : ∀ a ∈ l, g (f a) = some (h a)) : (l.map f).mapM g = some (l.map h) := by
  induction l with
  | nil => rfl
  | cons a l ih =>
      have hrest := ih fun b hb ↦ hstep b (List.mem_cons_of_mem a hb)
      rw [List.map_cons, List.mapM_cons, hstep a List.mem_cons_self, hrest]
      rfl

theorem exists_of_mem_mapM {g : α → Option β} {l : List α} {m : List β} (h : l.mapM g = some m)
    {b : β} (hb : b ∈ m) : ∃ a ∈ l, g a = some b := by
  induction l generalizing m with
  | nil =>
      cases h
      cases hb
  | cons a l ih =>
      rw [List.mapM_cons] at h
      obtain ⟨c, hc, h⟩ := Option.bind_eq_some_iff.mp h
      obtain ⟨m, hm, h⟩ := Option.bind_eq_some_iff.mp h
      cases h
      rcases List.mem_cons.mp hb with rfl | hb
      · exact ⟨a, List.mem_cons_self, hc⟩
      · obtain ⟨d, hd, hg⟩ := ih hm hb
        exact ⟨d, List.mem_cons_of_mem a hd, hg⟩

variable {ν μ : Type} {decode : Json → Option μ}

theorem Table.decode_encode {encode : ν → Json} {f : ν → μ}
    (h : ∀ v, decode (encode v) = some (f v)) (t : Table String ν) :
    ((t.entries.map fun (k, v) ↦ (k, encode v)).mapM fun m ↦ (decode m.2).map (Prod.mk m.1)).map
      Table.ofList = some (t.mapValues f) := by
  have hmembers : (t.entries.map fun (k, v) ↦ (k, encode v)).mapM
      (fun m ↦ (decode m.2).map (Prod.mk m.1)) = some (t.mapValues f).entries := by
    refine mapM_map_eq_some fun p _ ↦ ?_
    dsimp only
    rw [h p.2]
    rfl
  rw [hmembers, Option.map_some, Table.ofList_entries]

theorem Table.exists_of_mem_decode {members : List (String × Json)} {t : Table String μ}
    (h : (members.mapM fun m ↦ (decode m.2).map (Prod.mk m.1)).map Table.ofList = some t)
    {k : String} {v : μ} (hmem : (k, v) ∈ t.entries) : ∃ value, decode value = some v := by
  obtain ⟨l, hl, rfl⟩ := Option.map_eq_some_iff.mp h
  obtain ⟨m, -, hm⟩ := exists_of_mem_mapM hl (Table.mem_of_mem_ofList hmem)
  obtain ⟨w, hw, heq⟩ := Option.map_eq_some_iff.mp hm
  cases heq
  exact ⟨m.2, hw⟩

end Decoding

namespace ArgumentType

theorem textual_toJson (type : ArgumentType) : type.toJson.Textual := by
  cases type with
  | opaqueType => exact .string _
  | union keys =>
      refine .object fun m hm ↦ ?_
      obtain rfl := List.mem_singleton.mp hm
      refine .array fun v hv ↦ ?_
      obtain ⟨key, -, rfl⟩ := List.mem_map.mp hv
      exact .string key.text

theorem ofJson?_toJson (type : ArgumentType) : ofJson? type.toJson = some type.stringKeys := by
  cases type with
  | opaqueType => rfl
  | union keys =>
      have hkeys : (keys.toList.map LiteralKey.toJson).mapM LiteralKey.ofJson? =
          some (keys.toList.map fun key ↦ .string key.text) :=
        mapM_map_eq_some fun key _ ↦ rfl
      exact congrArg (Option.map ofKeys) hkeys

theorem not_hasNumberKey_of_ofJson? {value : Json} {type : ArgumentType}
    (h : ofJson? value = some type) : ¬ type.HasNumberKey := by
  unfold ofJson? at h
  split at h
  · cases h
    exact not_hasNumberKey_opaqueType
  · cases h
    exact not_hasNumberKey_opaqueType
  · obtain ⟨keys, hkeys, rfl⟩ := Option.map_eq_some_iff.mp h
    refine not_hasNumberKey_ofKeys fun text hmem ↦ ?_
    obtain ⟨item, -, hitem⟩ := exists_of_mem_mapM hkeys hmem
    cases item <;> cases hitem
  · cases h

end ArgumentType

namespace Shape

theorem textual_toJson (s : Shape) : s.toJson.Textual := by
  refine .object fun m hm ↦ ?_
  obtain ⟨⟨x, type⟩, -, rfl⟩ := List.mem_map.mp hm
  exact type.textual_toJson

theorem not_hasNumberKey_of_ofMembers? {members : List (String × Json)} {s : Shape}
    (h : ofMembers? members = some s) : ¬ s.HasNumberKey := by
  rintro ⟨x, type, hmem, hnumber⟩
  obtain ⟨value, hvalue⟩ := Table.exists_of_mem_decode h hmem
  exact ArgumentType.not_hasNumberKey_of_ofJson? hvalue hnumber

end Shape

namespace Index

theorem textual_toJson (i : Index) : i.toJson.Textual := by
  refine .object fun m hm ↦ ?_
  obtain ⟨⟨id, entry⟩, -, rfl⟩ := List.mem_map.mp hm
  cases entry with
  | none => exact .null
  | some s => exact s.textual_toJson

theorem entryOfJson?_entryToJson (entry : Option Shape) :
    entryOfJson? (entryToJson entry) = some (entry.map Shape.stringKeys) := by
  cases entry with
  | none => rfl
  | some s => exact congrArg (Option.map some) (Table.decode_encode ArgumentType.ofJson?_toJson s)

theorem ofJson?_toJson (i : Index) : ofJson? i.toJson = some i.stringKeys :=
  Table.decode_encode entryOfJson?_entryToJson i

theorem parse?_render {layout : Json.Layout} (hlayout : layout.Blank) (i : Index) :
    parse? (i.toJson.render layout) = some i.stringKeys := by
  rw [parse?, Json.parse?_render hlayout i.textual_toJson]
  exact i.ofJson?_toJson

theorem not_hasNumberKey_of_parse? {text : String} {i : Index} (h : parse? text = some i) :
    ¬ i.HasNumberKey := by
  obtain ⟨value, -, hvalue⟩ := Option.bind_eq_some_iff.mp h
  rintro ⟨id, s, hmem, hnumber⟩
  -- Nothing but an object is read as an index, nor as a shape.
  cases value with
  | object members =>
      obtain ⟨value, hentry⟩ := Table.exists_of_mem_decode hvalue hmem
      cases value with
      | object members =>
          obtain ⟨s', hs', heq⟩ := Option.map_eq_some_iff.mp hentry
          cases heq
          exact Shape.not_hasNumberKey_of_ofMembers? hs' hnumber
      | _ => cases hentry
  | _ => cases hvalue

/-- The index written out, with every list of keys passed through `f`.  The flag tells an opaque
type from a union without keys. -/
def listing (f : List LiteralKey → List LiteralKey) (i : Index) :
    List (String × Option (List (String × Bool × List LiteralKey))) :=
  let listType (type : ArgumentType) := (type.isOpaque, f type.keys)
  let listShape (s : Shape) := s.entries.map fun (x, type) ↦ (x, listType type)
  i.entries.map fun (id, entry) ↦ (id, entry.map listShape)

theorem listing_stringKeys (i : Index) :
    i.stringKeys.listing id =
      i.listing fun keys ↦ (keys.map fun key ↦ .string key.text).eraseDups := by
  have htype (type : ArgumentType) : (type.stringKeys.isOpaque, type.stringKeys.keys) =
      (type.isOpaque, (type.keys.map fun key ↦ LiteralKey.string key.text).eraseDups) := by
    cases type with
    | opaqueType => rfl
    | union keys => exact congrArg (Prod.mk false) (Distinct.toList_ofList _)
  refine List.map_map.trans (List.map_congr_left fun (id, entry) _ ↦ congrArg (Prod.mk id) ?_)
  cases entry with
  | none => rfl
  | some s =>
      refine congrArg some (List.map_map.trans ?_)
      exact List.map_congr_left fun (x, type) _ ↦ congrArg (Prod.mk x) (htype type)

/-- An index is read back from either text of it, with string keys for its keys and a repeated one
dropped.  This is the index itself exactly if it holds no number key, and so whenever it was read
from a text before. -/
theorem json_round_trip (i : Index) :
    ∃ j, parse? i.toJson.compact = some j ∧ parse? i.toJson.pretty = some j ∧
      (j.listing id = i.listing fun keys ↦ (keys.map fun key ↦ .string key.text).eraseDups) ∧
      (j = i ↔ ∀ id s x type text, (id, some s) ∈ i.entries → (x, type) ∈ s.entries →
        .number text ∉ type.keys) ∧
      ∀ text, parse? text = some i → j = i := by
  refine ⟨i.stringKeys, parse?_render Json.Layout.blank_compact i,
    parse?_render Json.Layout.blank_pretty i, i.listing_stringKeys, ?_, fun text htext ↦ ?_⟩
  · rw [stringKeys_eq_self_iff]
    constructor
    · intro h id s x type text hs hx hmem
      exact h ⟨id, s, hs, x, type, hx, text, hmem⟩
    · rintro h ⟨id, s, hs, x, type, hx, text, hmem⟩
      exact h id s x type text hs hx hmem
  · exact stringKeys_eq_self (not_hasNumberKey_of_parse? htext)

end Index

end FluentShapes

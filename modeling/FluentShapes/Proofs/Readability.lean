import FluentShapes.Declaration.Type
import Mathlib.Data.List.Basic

/-!
# Texts that can be read in one way only

A printer that puts the texts of its parts one after another loses nothing if each part can be told
from what follows it.  `Readable` says this of one part: for all that may follow, the whole text
determines both the part and what follows.  Parts that are readable in front of one another are
readable together, so a printer is injective because its parts are.

Not all of a value need be determined.  What a reader gets to see of it is its `view`.
-/

namespace FluentShapes

universe u v w x

/-- In front of what satisfies `follows`, a text determines the view of its value and where it
ends. -/
def Readable {α : Type u} {β : Type v} (follows : List Char → Prop) (text : α → List Char)
    (view : α → β) : Prop :=
  ∀ ⦃a b : α⦄ ⦃r s : List Char⦄, follows r → follows s → text a ++ r = text b ++ s →
    view a = view b ∧ r = s

namespace Readable

variable {α : Type u} {β : Type v} {γ : Type w} {δ : Type x}
variable {P Q : List Char → Prop} {f : α → List Char} {view : α → β}

theorem view_eq (h : Readable P f view) (hnil : P []) {a b : α} (heq : f a = f b) :
    view a = view b :=
  (h hnil hnil (congrArg (· ++ []) heq)).1

theorem append_left (h : Readable P f view) (t : List Char) :
    Readable P (fun a ↦ t ++ f a) view := by
  intro a b r s hr hs heq
  rw [List.append_assoc, List.append_assoc, List.append_cancel_left_eq] at heq
  exact h hr hs heq

/-- A fixed text behind a part takes the place of what follows it. -/
theorem append_right (h : Readable P f view) (t : List Char) (ht : ∀ r, Q r → P (t ++ r)) :
    Readable Q (fun a ↦ f a ++ t) view := by
  intro a b r s hr hs heq
  rw [List.append_assoc, List.append_assoc] at heq
  obtain ⟨hview, hrest⟩ := h (ht r hr) (ht s hs) heq
  exact ⟨hview, List.append_cancel_left hrest⟩

/-- Two parts in a row. -/
theorem pair {g : γ → List Char} {view' : γ → δ} (hf : Readable P f view)
    (hg : Readable Q g view') (hfollows : ∀ c r, Q r → P (g c ++ r)) :
    Readable Q (fun p : α × γ ↦ f p.1 ++ g p.2) (Prod.map view view') := by
  rintro ⟨a, c⟩ ⟨b, d⟩ r s hr hs heq
  rw [List.append_assoc, List.append_assoc] at heq
  obtain ⟨hview, hrest⟩ := hf (hfollows c r hr) (hfollows d s hs) heq
  obtain ⟨hview', hrest'⟩ := hg hr hs hrest
  exact ⟨Prod.ext hview hview', hrest'⟩

/-- What may follow a list of parts may also follow one of them. -/
theorem follows_flatMap (hmore : ∀ a r, P (f a ++ r)) (hend : ∀ r, Q r → P r) (l : List α)
    (r : List Char) (hr : Q r) : P (l.flatMap f ++ r) := by
  cases l with
  | nil => exact hend r hr
  | cons a l =>
      rw [List.flatMap_cons, List.append_assoc]
      exact hmore a _

/-- Parts up to a point where there cannot be another one. -/
theorem flatMap (h : Readable P f view) (hmore : ∀ a r, P (f a ++ r)) (hend : ∀ r, Q r → P r)
    (hlast : ∀ a r s, Q s → f a ++ r ≠ s) :
    Readable Q (fun l : List α ↦ l.flatMap f) (List.map view) := by
  intro l m r s hr hs heq
  beta_reduce at heq
  -- One list cannot end where the other goes on: what follows would start with a part.
  induction l generalizing m with
  | nil =>
      cases m with
      | nil => exact ⟨rfl, heq⟩
      | cons b m =>
          rw [List.flatMap_cons, List.append_assoc] at heq
          exact absurd heq.symm (hlast b _ r hr)
  | cons a l ih =>
      cases m with
      | nil =>
          rw [List.flatMap_cons, List.append_assoc] at heq
          exact absurd heq (hlast a _ s hs)
      | cons b m =>
          rw [List.flatMap_cons, List.flatMap_cons, List.append_assoc, List.append_assoc] at heq
          obtain ⟨hview, hrest⟩ := h (follows_flatMap hmore hend l r hr)
            (follows_flatMap hmore hend m s hs) heq
          obtain ⟨hviews, hrest'⟩ := ih hrest
          exact ⟨congrArg₂ List.cons hview hviews, hrest'⟩

theorem intercalate_map_cons (sep : List Char) (f : α → List Char) (a : α) (l : List α) :
    sep.intercalate ((a :: l).map f) = f a ++ l.flatMap fun b ↦ sep ++ f b := by
  induction l generalizing a with
  | nil => simp
  | cons b l ih =>
      rw [List.map_cons, List.map_cons, List.intercalate_cons_cons, ← List.map_cons, ih,
        List.flatMap_cons, List.append_assoc, List.append_assoc]

/-- Parts with a separator between them, at least one of them. -/
theorem intercalate (h : Readable P f view) (sep : List Char) (hsep : ∀ r, P (sep ++ r))
    (hend : ∀ r, Q r → P r) (hlast : ∀ r s, Q s → sep ++ r ≠ s) :
    Readable Q (fun p : α × List α ↦ sep.intercalate ((p.1 :: p.2).map f))
      (fun p ↦ (p.1 :: p.2).map view) := by
  have hmore : ∀ b r, P (sep ++ f b ++ r) := by
    intro b r
    rw [List.append_assoc]
    exact hsep _
  have htail : Readable Q (fun l : List α ↦ l.flatMap fun b ↦ sep ++ f b) (List.map view) := by
    refine (h.append_left sep).flatMap hmore hend fun b r s hs ↦ ?_
    rw [List.append_assoc]
    exact hlast _ s hs
  have hpair := h.pair htail (follows_flatMap hmore hend)
  rintro ⟨a, l⟩ ⟨b, m⟩ r s hr hs heq
  beta_reduce at heq
  rw [intercalate_map_cons, intercalate_map_cons] at heq
  obtain ⟨hviews, hrest⟩ := @hpair (a, l) (b, m) r s hr hs heq
  obtain ⟨hview, hviews⟩ := Prod.ext_iff.mp hviews
  exact ⟨congrArg₂ List.cons hview hviews, hrest⟩

end Readable

/-- Putting texts together brings in no other character than those of the separator. -/
theorem notMem_intercalate {c : Char} {sep : String} (hsep : c ∉ sep.toList) {texts : List String}
    (h : ∀ text ∈ texts, c ∉ text.toList) : c ∉ (sep.intercalate texts).toList := by
  cases texts with
  | nil => simp
  | cons text texts =>
      have hlist := Readable.intercalate_map_cons sep.toList String.toList text texts
      simp only [String.toList_intercalate, hlist, List.mem_append, List.mem_flatMap, not_or,
        not_exists, not_and]
      exact ⟨h text List.mem_cons_self,
        fun t ht ↦ ⟨hsep, h t (List.mem_cons_of_mem text ht)⟩⟩

/-! ## Words and quotes -/

/-- No character of a class starts the text. -/
def StartsOutside (p : Char → Bool) (s : List Char) : Prop := ∀ c ∈ s.head?, p c = false

/-- A word of characters of one class ends where the first other character stands. -/
theorem word_append_inj {p : Char → Bool} {w w' r s : List Char} (hw : ∀ c ∈ w, p c = true)
    (hw' : ∀ c ∈ w', p c = true) (hr : StartsOutside p r) (hs : StartsOutside p s)
    (heq : w ++ r = w' ++ s) : w = w' ∧ r = s := by
  have htake : ∀ {w r : List Char}, (∀ c ∈ w, p c = true) → StartsOutside p r →
      (w ++ r).takeWhile p = w := by
    intro w r hw hr
    rw [List.takeWhile_append_of_pos hw]
    cases r with
    | nil => rw [List.takeWhile_nil, List.append_nil]
    | cons c r => rw [List.takeWhile_cons_of_neg (by simp [hr c rfl]), List.append_nil]
  obtain rfl : w = w' := by rw [← htake hw hr, heq, htake hw' hs]
  exact ⟨rfl, List.append_cancel_left heq⟩

namespace Quoted

theorem readable_encodeChar : Readable (fun _ ↦ True) encodeChar id := by
  intro c d r s _ _ heq
  unfold encodeChar at heq
  split_ifs at heq <;> grind

theorem encodeChar_append_ne_quote (c : Char) (r t : List Char) : encodeChar c ++ r ≠ '"' :: t := by
  unfold encodeChar
  split_ifs <;> simp_all

/-- A quote inside a literal is never mistaken for its end. -/
theorem readable_encode : Readable (fun _ ↦ True) encode id := by
  have hbody : Readable (fun r ↦ ∃ t, r = '"' :: t) (fun s : List Char ↦ s.flatMap encodeChar)
      (List.map id) := by
    refine readable_encodeChar.flatMap (fun _ _ ↦ trivial) (fun _ _ ↦ trivial) ?_
    rintro c r s ⟨t, rfl⟩
    exact encodeChar_append_ne_quote c r t
  have hclosed := (hbody.append_right ['"'] fun r (_ : True) ↦ ⟨r, rfl⟩).append_left ['"']
  intro s t r u hr hu heq
  have h := hclosed hr hu heq
  rwa [List.map_id, List.map_id] at h

theorem length_le_length_flatMap_encodeChar (s : List Char) :
    s.length ≤ (s.flatMap encodeChar).length := by
  induction s with
  | nil => exact Nat.le_refl 0
  | cons c s ih =>
      have hc : 1 ≤ (encodeChar c).length := by
        unfold encodeChar
        split_ifs <;> simp
      rw [List.flatMap_cons, List.length_append, List.length_cons]
      omega

end Quoted

theorem readable_quote : Readable (fun _ ↦ True) (fun s ↦ (quote s).toList) id := by
  intro s t r u hr hu heq
  beta_reduce at heq
  rw [quote, quote, String.toList_ofList, String.toList_ofList] at heq
  obtain ⟨htext, hrest⟩ := Quoted.readable_encode hr hu heq
  exact ⟨String.toList_injective htext, hrest⟩

theorem quote_injective {s t : String} (h : quote s = quote t) : s = t :=
  readable_quote.view_eq trivial (congrArg String.toList h)

/-- Quoting adds at least the quotes. -/
theorem quote_ne_self (s : String) : quote s ≠ s := by
  intro h
  have hlength := congrArg (fun s : String ↦ s.toList.length) h
  have hle := Quoted.length_le_length_flatMap_encodeChar s.toList
  simp only [quote, Quoted.encode, String.toList_ofList, List.length_cons,
    List.length_append] at hlength
  omega

/-- A word does not start with a quote. -/
theorem word_append_ne_quote_append {p : Char → Bool} (hp : p '"' = false) {w : List Char}
    (hne : w ≠ []) (hw : ∀ c ∈ w, p c = true) (text : String) (r s : List Char) :
    w ++ r ≠ (quote text).toList ++ s := by
  rw [quote, String.toList_ofList, Quoted.encode]
  cases w with
  | nil => exact absurd rfl hne
  | cons c w =>
      intro heq
      obtain rfl : c = '"' := (List.cons.inj heq).1
      have hc := hw _ List.mem_cons_self
      rw [hp] at hc
      cases hc

/-- What is a word of one class or else a quoted text. -/
theorem readable_of_quote_or_word {α : Type u} {p : Char → Bool} (hp : p '"' = false)
    {f : α → String} (hf : ∀ a, (∃ text, f a = quote text) ∨
      (f a).toList ≠ [] ∧ ∀ c ∈ (f a).toList, p c = true) :
    Readable (StartsOutside p) (fun a ↦ (f a).toList) f := by
  intro a b r s hr hs heq
  beta_reduce at heq
  rcases hf a with ⟨text, ha⟩ | ⟨ha, haword⟩ <;> rcases hf b with ⟨text', hb⟩ | ⟨hb, hbword⟩
  · rw [ha, hb] at heq ⊢
    obtain ⟨htext, hrest⟩ := readable_quote trivial trivial heq
    exact ⟨congrArg quote htext, hrest⟩
  · rw [ha] at heq
    exact absurd heq.symm (word_append_ne_quote_append hp hb hbword text s r)
  · rw [hb] at heq
    exact absurd heq (word_append_ne_quote_append hp ha haword text' r s)
  · obtain ⟨hword, hrest⟩ := word_append_inj haword hbword hr hs heq
    exact ⟨String.toList_injective hword, hrest⟩

end FluentShapes

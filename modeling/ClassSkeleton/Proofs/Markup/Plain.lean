import ClassSkeleton.Declaration.Arguments
import ClassSkeleton.Markup.Plain
import ClassSkeleton.Proofs.Text.Occurrence

/-!
Plain text of what has been written out. Escaped text has no tags and decodes to the text itself,
blanks collapse word by word, and a list of type parameters in angle brackets is taken apart into
the parameters.
-/
namespace ClassSkeleton

namespace Text

theorem replace_of_passes {mark front rest : Text} (hmark : mark ≠ []) (new : Text)
    (h : Passes mark front rest) :
    replace mark new (front ++ rest) = front ++ replace mark new rest := by
  rw [replace, replace, splitOn_eq hmark, splitOn_eq hmark rest, breakAt?_of_passes h]
  cases breakAt? mark rest with
  | none => simp [join, List.intercalate]
  | some parts =>
    obtain ⟨before, after⟩ := parts
    have hne : splitOn mark after ≠ [] := splitFrom_ne_nil mark 0 after
    simp only [Option.map_some]
    rw [join_cons _ _ hne, join_cons _ _ hne]
    simp only [List.append_assoc]

theorem replace_mark {mark : Text} (hmark : mark ≠ []) (new rest : Text) :
    replace mark new (mark ++ rest) = new ++ replace mark new rest := by
  rw [replace, replace, splitOn_eq hmark, breakAt?_mark hmark]
  exact join_cons _ _ (splitFrom_ne_nil mark 0 rest)

theorem replace_eq_self {mark text : Text} (hmark : mark ≠ []) (new : Text)
    (h : ¬ mark <:+: text) : replace mark new text = text := by
  rw [replace, splitOn_eq hmark, (breakAt?_eq_none_iff hmark text).mpr h]
  simp [join, List.intercalate]

theorem collapseFrom_append_cons (afterBlank : Bool) (front rest : Text) {c : Char}
    (hc : isBlank c = false) :
    collapseFrom afterBlank (front ++ c :: rest) =
      collapseFrom afterBlank front ++ c :: collapseFrom false rest := by
  induction front generalizing afterBlank with
  | nil => simp [collapseFrom, hc]
  | cons d front ih =>
    rw [List.cons_append, collapseFrom, collapseFrom]
    split
    · split <;> simp [ih]
    · simp [ih]

theorem collapseFrom_word (afterBlank : Bool) {word : Text} (rest : Text) (hne : word ≠ [])
    (hword : ∀ c ∈ word, isBlank c = false) :
    collapseFrom afterBlank (word ++ rest) = word ++ collapseFrom false rest := by
  induction word generalizing afterBlank with
  | nil => exact absurd rfl hne
  | cons c word ih =>
    have hc := hword c List.mem_cons_self
    rw [List.cons_append, collapseFrom, if_neg (by simp [hc]), List.cons_append]
    cases word with
    | nil => rfl
    | cons d word =>
      rw [ih false (by simp) fun e he => hword e (List.mem_cons_of_mem c he)]

theorem mem_collapseFrom {afterBlank : Bool} {text : Text} {c : Char}
    (h : c ∈ collapseFrom afterBlank text) : c = ' ' ∨ c ∈ text := by
  induction text generalizing afterBlank with
  | nil => simp [collapseFrom] at h
  | cons d rest ih =>
    rw [collapseFrom] at h
    split at h
    · split at h
      · rcases ih h with h | h
        · exact .inl h
        · exact .inr (List.mem_cons_of_mem d h)
      · rcases List.mem_cons.mp h with h | h
        · exact .inl h
        · rcases ih h with h | h
          · exact .inl h
          · exact .inr (List.mem_cons_of_mem d h)
    · rcases List.mem_cons.mp h with rfl | h
      · exact .inr List.mem_cons_self
      · rcases ih h with h | h
        · exact .inl h
        · exact .inr (List.mem_cons_of_mem d h)

theorem trimStart_cons {c : Char} (rest : Text) (hc : isBlank c = false) :
    trimStart (c :: rest) = c :: rest := by
  rw [trimStart, List.dropWhile_cons, if_neg (by simp [hc])]

theorem trimStart_append_cons (front rest : Text) {c : Char} (hc : isBlank c = false) :
    trimStart (front ++ c :: rest) = trimStart front ++ c :: rest := by
  rw [trimStart, trimStart, List.dropWhile_append]
  split
  · rename_i hnil
    rw [List.isEmpty_iff] at hnil
    rw [hnil, List.nil_append]
    exact trimStart_cons rest hc
  · rfl

theorem trimEnd_append_cons (front rest : Text) {c : Char} (hc : isBlank c = false) :
    trimEnd (front ++ c :: rest) = front ++ c :: trimEnd rest := by
  have hsplit : (front ++ c :: rest).reverse = rest.reverse ++ (c :: front.reverse) := by simp
  rw [trimEnd, trimEnd, hsplit, List.dropWhile_append]
  split
  · rename_i hnil
    rw [List.isEmpty_iff] at hnil
    rw [hnil, List.dropWhile_cons, if_neg (by simp [hc])]
    simp
  · simp

theorem trimEnd_append (front rest : Text) :
    trimEnd (front ++ rest) =
      if trimEnd rest = [] then trimEnd front else front ++ trimEnd rest := by
  rw [trimEnd, trimEnd, trimEnd, List.reverse_append, List.dropWhile_append]
  by_cases hrest : rest.reverse.dropWhile isBlank = []
  · rw [hrest]
    simp
  · rw [if_neg (by simpa using hrest), if_neg (by simpa using hrest)]
    simp

theorem trimEnd_isPrefix (text : Text) : trimEnd text <+: text := by
  have h := List.dropWhile_suffix isBlank (l := text.reverse)
  rw [trimEnd]
  simpa using List.reverse_prefix.mpr h

theorem mem_of_mem_trim {c : Char} {text : Text} (h : c ∈ trim text) : c ∈ text :=
  (List.dropWhile_suffix isBlank).mem ((trimEnd_isPrefix (trimStart text)).mem h)

end Text

namespace Markup

open Text

def entities : List Text := ["&lt;".toList, "&gt;".toList, "&nbsp;".toList]

def escapeChar (c : Char) : Text :=
  if c = '<' then "&lt;".toList else if c = '>' then "&gt;".toList else [c]

def escape (text : Text) : Text := text.flatMap escapeChar

theorem not_mem_escape {c : Char} (hc : c = '<' ∨ c = '>') (text : Text) : c ∉ escape text := by
  intro hmem
  obtain ⟨d, -, hd⟩ := List.mem_flatMap.mp hmem
  rw [escapeChar] at hd
  rcases hc with rfl | rfl
  · split at hd
    · exact absurd hd (by decide)
    · split at hd
      · exact absurd hd (by decide)
      · rename_i hlt hgt
        exact hlt (List.mem_singleton.mp hd).symm
  · split at hd
    · exact absurd hd (by decide)
    · split at hd
      · exact absurd hd (by decide)
      · rename_i hlt hgt
        exact hgt (List.mem_singleton.mp hd).symm

theorem stripFrom_append {front : Text} (rest : Text) (h : '<' ∉ front) :
    stripFrom false (front ++ rest) = front ++ stripFrom false rest := by
  induction front with
  | nil => rfl
  | cons c front ih =>
    have hc : c ≠ '<' := fun heq => h (by simp [heq])
    rw [List.cons_append, stripFrom, if_neg (by simp), if_neg hc,
      ih fun hmem => h (List.mem_cons_of_mem c hmem), List.cons_append]

theorem stripFrom_tag (inside rest : Text) (h : '>' ∉ inside) :
    stripFrom true (inside ++ '>' :: rest) = stripFrom false rest := by
  induction inside with
  | nil => simp [stripFrom]
  | cons c inside ih =>
    obtain ⟨hc, hinside⟩ : '>' ≠ c ∧ '>' ∉ inside := by simpa using h
    rw [List.cons_append, stripFrom, if_pos rfl, bne_iff_ne.mpr (Ne.symm hc)]
    exact ih hinside

theorem stripTags_eq_self {text : Text} (h : '<' ∉ text) : stripTags text = text := by
  have hstrip := stripFrom_append [] h
  rw [List.append_nil] at hstrip
  rw [stripTags, hstrip, stripFrom, List.append_nil]

theorem decodeEntities_append {front : Text} (rest : Text) (h : '&' ∉ front) :
    decodeEntities (front ++ rest) = front ++ decodeEntities rest := by
  have hkeep : ∀ mark ∈ entities, ∀ (new rest : Text),
      replace mark new (front ++ rest) = front ++ replace mark new rest := by
    intro mark hmark new rest
    have hhead : mark ≠ [] ∧ mark.head? = some '&' := by
      have hall : ∀ mark ∈ entities, mark ≠ [] ∧ mark.head? = some '&' := by decide
      exact hall mark hmark
    apply replace_of_passes hhead.1
    exact passes_of_head _ hhead.2 h
  rw [decodeEntities, decodeEntities, hkeep _ (by decide), hkeep _ (by decide),
    hkeep _ (by decide)]

theorem entity_shape {entity : Text} (h : entity ∈ entities) :
    ∃ tail, entity = '&' :: tail ∧ '&' ∉ tail := by
  have hall : ∀ mark ∈ entities, mark = '&' :: mark.tail ∧ '&' ∉ mark.tail := by decide
  exact ⟨entity.tail, hall entity h⟩

theorem not_opens_entity {c : Char} (hc : c ≠ '&') (rest : Text) :
    ∀ entity ∈ entities, ¬ entity <+: c :: rest := by
  intro entity hentity hlead
  obtain ⟨tail, rfl, -⟩ := entity_shape hentity
  exact hc (List.cons_prefix_cons.mp hlead).1.symm

/-- A word without an ampersand that opens an encoded text opens the text. -/
theorem prefix_of_encoded {code : Char → Text} (hcode : ∀ c, code c = [c] ∨ code c ∈ entities)
    {word text : Text} (hword : '&' ∉ word) (h : word <+: text.flatMap code) : word <+: text := by
  induction word generalizing text with
  | nil => exact List.nil_prefix
  | cons w word ih =>
    cases text with
    | nil =>
      rw [List.flatMap_nil] at h
      exact h
    | cons c text =>
      rw [List.flatMap_cons] at h
      rcases hcode c with hplain | hentity
      · rw [hplain] at h
        obtain ⟨rfl, htail⟩ := List.cons_prefix_cons.mp h
        exact (List.prefix_cons_inj w).mpr
          (ih (fun hmem => hword (List.mem_cons_of_mem w hmem)) htail)
      · obtain ⟨tail, hshape, -⟩ := entity_shape hentity
        rw [hshape, List.cons_append] at h
        obtain ⟨rfl, -⟩ := List.cons_prefix_cons.mp h
        exact absurd List.mem_cons_self hword

/-- One entity is exchanged for its character, in a text that does not hold it itself. -/
theorem replace_encoded {entity : Text} {special : Char} {code : Char → Text}
    (hentity : entity ∈ entities) (hspecial : code special = entity)
    (hcode : ∀ c, code c = [c] ∨ code c ∈ entities) (hother : ∀ c, c ≠ special → code c ≠ entity)
    {text : Text} (htext : ¬ entity <:+: text) :
    replace entity [special] (text.flatMap code) =
      text.flatMap fun c => if c = special then [special] else code c := by
  obtain ⟨tail, hshape, htail⟩ := entity_shape hentity
  have hne : entity ≠ [] := by simp [hshape]
  induction text with
  | nil => exact replace_eq_self hne _ (by simpa using hne)
  | cons c text ih =>
    have hrest : ¬ entity <:+: text := fun h => htext (h.trans (List.suffix_cons c text).isInfix)
    rw [List.flatMap_cons, List.flatMap_cons]
    by_cases hc : c = special
    · subst hc
      rw [hspecial, replace_mark hne, ih hrest, if_pos rfl]
    · rw [if_neg hc, ← ih hrest]
      apply replace_of_passes hne
      rcases hcode c with hplain | hcoded
      · rw [hplain, passes_cons]
        refine ⟨?_, passes_nil _ _⟩
        rw [List.nil_append, hshape]
        intro hlead
        obtain ⟨rfl, hword⟩ := List.cons_prefix_cons.mp hlead
        apply htext
        rw [hshape]
        exact ((List.prefix_cons_inj '&').mpr (prefix_of_encoded hcode htail hword)).isInfix
      · have hclear : ∀ mark ∈ entities, ∀ next ∈ entities, next ≠ mark → Clear mark next := by
          decide
        exact passes_of_clear (hclear entity hentity (code c) hcoded (hother c hc)) _

/-- Escaping is undone by decoding, in a text without entities of its own. -/
theorem decodeEntities_escape {text : Text} (h : ∀ entity ∈ entities, ¬ entity <:+: text) :
    decodeEntities (escape text) = text := by
  have hlt : replace "&lt;".toList ['<'] (escape text) =
      text.flatMap fun c => if c = '>' then "&gt;".toList else [c] := by
    rw [escape, replace_encoded (by decide) (by decide) _ _ (h _ (by decide))]
    · apply congrArg text.flatMap
      funext c
      rw [escapeChar]
      split
      · rename_i heq
        rw [heq, if_neg (by decide)]
      · rfl
    · intro c
      rw [escapeChar]
      split
      · exact .inr (by decide)
      · split
        · exact .inr (by decide)
        · exact .inl rfl
    · intro c hc
      rw [escapeChar, if_neg hc]
      split
      · decide
      · exact fun heq => absurd (congrArg List.length heq) (by simp)
  have hgt : replace "&gt;".toList ['>']
      (text.flatMap fun c => if c = '>' then "&gt;".toList else [c]) = text := by
    rw [replace_encoded (by decide) (by decide) _ _ (h _ (by decide))]
    · calc
        _ = text.flatMap fun c => [c] := by
          apply congrArg text.flatMap
          funext c
          split
          · rename_i heq
            rw [heq]
          · rfl
        _ = text := List.flatMap_singleton' text
    · intro c
      split
      · exact .inr (by decide)
      · exact .inl rfl
    · intro c hc
      rw [if_neg hc]
      exact fun heq => absurd (congrArg List.length heq) (by simp)
  rw [decodeEntities, hlt, hgt]
  exact replace_eq_self (by decide) _ (h _ (by decide))

end Markup

end ClassSkeleton

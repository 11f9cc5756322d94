import ClassSkeleton.Proofs.Markup.Plain

/-!
Entities are decoded one kind after the other, each throughout the text. No entity begins inside
another one, and no character that replaces one of them stands in an entity, so this comes to one
pass from the left, after which no entity is left. Two texts are decoded by themselves unless an
entity reaches from the one into the other.
-/
namespace ClassSkeleton

namespace Text

/-- A mark that begins at the end of one text and goes on at the front of the next. -/
def Bridges (mark left right : Text) : Prop :=
  ∃ k < mark.length, 0 < k ∧ mark.take k <:+ left ∧ mark.drop k <+: right

instance (mark left right : Text) : Decidable (Bridges mark left right) :=
  inferInstanceAs (Decidable (∃ k < mark.length, 0 < k ∧ mark.take k <:+ left ∧
    mark.drop k <+: right))

variable {mark left right : Text}

theorem Bridges.of_suffix {whole : Text} (h : Bridges mark left right) (hwhole : left <:+ whole) :
    Bridges mark whole right := by
  obtain ⟨k, hk, hpos, hleft, hright⟩ := h
  exact ⟨k, hk, hpos, hleft.trans hwhole, hright⟩

theorem not_bridges_of_not_mem {c : Char} {rest : Text} (hc : c ∉ mark) :
    ¬ Bridges mark left (c :: rest) := by
  rintro ⟨k, hk, -, -, hright⟩
  rcases List.prefix_cons_iff.mp hright with hnil | ⟨tail, hdrop, -⟩
  · have := List.drop_eq_nil_iff.mp hnil
    omega
  · exact hc (List.mem_of_mem_drop (hdrop ▸ List.mem_cons_self))

theorem prefix_of_not_bridges (hleft : left ≠ []) (h : mark <+: left ++ right)
    (hbridges : ¬ Bridges mark left right) : mark <+: left := by
  by_cases hlength : mark.length ≤ left.length
  · exact List.prefix_of_prefix_length_le h (List.prefix_append left right) hlength
  · obtain ⟨tail, rfl⟩ : left <+: mark :=
      List.prefix_of_prefix_length_le (List.prefix_append left right) h (by omega)
    have htail : tail <+: right := (List.prefix_append_right_inj left).mp h
    have htake : (left ++ tail).take left.length <:+ left := ⟨[], List.take_left⟩
    refine absurd ⟨left.length, by omega, List.length_pos_iff.mpr hleft, htake, ?_⟩ hbridges
    rwa [List.drop_left]

theorem replace_cons {c : Char} {rest : Text} (hmark : mark ≠ []) (new : Text)
    (h : ¬ mark <+: c :: rest) : replace mark new (c :: rest) = c :: replace mark new rest := by
  have hpass : Passes mark [c] rest := (passes_cons mark [] rest c).mpr ⟨h, passes_nil mark rest⟩
  exact replace_of_passes hmark new hpass

/-- An exchange brings no word to the front of a text, unless the new character stands in it. -/
theorem prefix_of_replace {c : Char} {word text : Text} (hmark : mark ≠ []) (hc : c ∉ word)
    (h : word <+: replace mark [c] text) : word <+: text := by
  induction word generalizing text with
  | nil => exact List.nil_prefix
  | cons w word ih =>
    obtain ⟨hw, hword⟩ : c ≠ w ∧ c ∉ word := by simpa using hc
    by_cases hlead : mark <+: text
    · obtain ⟨rest, rfl⟩ := hlead
      rw [replace_mark hmark, List.singleton_append] at h
      exact absurd (List.cons_prefix_cons.mp h).1.symm hw
    · cases text with
      | nil => rwa [replace_eq_self hmark [c] (by simpa using hmark)] at h
      | cons d text =>
        rw [replace_cons hmark [c] hlead] at h
        obtain ⟨rfl, hrest⟩ := List.cons_prefix_cons.mp h
        exact List.cons_prefix_cons.mpr ⟨rfl, ih hword hrest⟩

end Text

namespace Markup

open Text

/-- The entities with the characters that they stand for. -/
def entityTable : List (Text × Char) :=
  [("&lt;".toList, '<'), ("&gt;".toList, '>'), ("&nbsp;".toList, ' ')]

/-- One pass from the left, in which each entity is exchanged where it stands. -/
def decodePass : Text → Text
  | '&' :: 'l' :: 't' :: ';' :: rest => '<' :: decodePass rest
  | '&' :: 'g' :: 't' :: ';' :: rest => '>' :: decodePass rest
  | '&' :: 'n' :: 'b' :: 's' :: 'p' :: ';' :: rest => ' ' :: decodePass rest
  | c :: rest => c :: decodePass rest
  | [] => []

def exchange (text : Text) (row : Text × Char) : Text := replace row.1 [row.2] text

variable {rows : List (Text × Char)} {row : Text × Char} {c : Char} {rest : Text}

theorem decodeEntities_eq_foldl (text : Text) :
    decodeEntities text = entityTable.foldl exchange text := rfl

theorem mem_entities (h : row ∈ entityTable) : row.1 ∈ entities := List.mem_map_of_mem h

theorem entity_ne_nil {entity : Text} (h : entity ∈ entities) : entity ≠ [] := by
  obtain ⟨tail, rfl, -⟩ := entity_shape h
  exact List.cons_ne_nil _ _

theorem not_opens_special (hrow : row ∈ entityTable) (rest : Text) :
    ∀ entity ∈ entities, ¬ entity <+: row.2 :: rest := by
  have hspecial : ∀ row ∈ entityTable, row.2 ≠ '&' := by decide
  exact not_opens_entity (hspecial row hrow) rest

theorem prefix_of_foldl_exchange {word text : Text} (hrows : rows ⊆ entityTable)
    (hword : ∀ row ∈ entityTable, row.2 ∉ word) (h : word <+: rows.foldl exchange text) :
    word <+: text := by
  induction rows generalizing text with
  | nil => exact h
  | cons row rows ih =>
    obtain ⟨hrow, hrows⟩ := List.cons_subset.mp hrows
    exact prefix_of_replace (entity_ne_nil (mem_entities hrow)) (hword row hrow) (ih hrows h)

theorem foldl_exchange_cons (hrows : rows ⊆ entityTable)
    (h : ∀ row ∈ rows, ¬ row.1 <+: c :: rest) :
    rows.foldl exchange (c :: rest) = c :: rows.foldl exchange rest := by
  induction rows generalizing rest with
  | nil => rfl
  | cons row rows ih =>
    obtain ⟨hrow, hrows⟩ := List.cons_subset.mp hrows
    have hne := entity_ne_nil (mem_entities hrow)
    rw [List.foldl_cons, List.foldl_cons, exchange, exchange,
      replace_cons hne _ (h row List.mem_cons_self)]
    apply ih hrows
    -- behind the character, the exchange has put nothing that an entity goes on with
    intro other hother hlead
    have hclear : ∀ row ∈ entityTable, ∀ other ∈ entityTable, row.2 ∉ other.1 := by decide
    apply h other (List.mem_cons_of_mem row hother)
    rw [← replace_cons hne _ (h row List.mem_cons_self)] at hlead
    exact prefix_of_replace hne (hclear row hrow other (hrows hother)) hlead

theorem foldl_exchange_entity (hrows : rows ⊆ entityTable) (hrow : row ∈ rows) (rest : Text) :
    rows.foldl exchange (row.1 ++ rest) = row.2 :: rows.foldl exchange rest := by
  induction rows generalizing rest with
  | nil => exact absurd hrow List.not_mem_nil
  | cons first rows ih =>
    obtain ⟨hfirst, hothers⟩ := List.cons_subset.mp hrows
    have hne := entity_ne_nil (mem_entities hfirst)
    rw [List.foldl_cons, List.foldl_cons, exchange, exchange]
    by_cases hsame : row = first
    · subst hsame
      rw [replace_mark hne, List.singleton_append]
      exact foldl_exchange_cons hothers fun other hother =>
        not_opens_special hfirst _ other.1 (mem_entities (hothers hother))
    · have hlater := (List.mem_cons.mp hrow).resolve_left hsame
      have hclear : ∀ first ∈ entityTable, ∀ row ∈ entityTable, row ≠ first →
          Clear first.1 row.1 := by decide
      have hpass := hclear first hfirst row (hothers hlater) hsame
      rw [replace_of_passes hne _ (passes_of_clear hpass rest)]
      exact ih hothers hlater _

theorem decodeEntities_cons (h : ∀ entity ∈ entities, ¬ entity <+: c :: rest) :
    decodeEntities (c :: rest) = c :: decodeEntities rest := by
  rw [decodeEntities_eq_foldl, decodeEntities_eq_foldl]
  exact foldl_exchange_cons (List.Subset.refl _) fun row hrow => h row.1 (mem_entities hrow)

theorem decodeEntities_entity (h : row ∈ entityTable) (rest : Text) :
    decodeEntities (row.1 ++ rest) = row.2 :: decodeEntities rest := by
  rw [decodeEntities_eq_foldl, decodeEntities_eq_foldl]
  exact foldl_exchange_entity (List.Subset.refl _) h rest

/-- Induction on a text along the entities in it. -/
@[elab_as_elim]
theorem entity_induction {motive : Text → Prop} (nil : motive [])
    (entity : ∀ row ∈ entityTable, ∀ rest, motive rest → motive (row.1 ++ rest))
    (plain : ∀ c rest, (∀ entity ∈ entities, ¬ entity <+: c :: rest) → motive rest →
      motive (c :: rest)) (text : Text) : motive text := by
  induction text using decodePass.induct with
  | case1 rest ih => exact entity _ (by decide : ("&lt;".toList, '<') ∈ entityTable) rest ih
  | case2 rest ih => exact entity _ (by decide : ("&gt;".toList, '>') ∈ entityTable) rest ih
  | case3 rest ih => exact entity _ (by decide : ("&nbsp;".toList, ' ') ∈ entityTable) rest ih
  | case4 c rest hlt hgt hnbsp ih =>
    apply plain c rest _ ih
    intro entity hentity hlead
    obtain ⟨tail, htail⟩ := hlead
    simp only [entities, List.mem_cons, List.not_mem_nil, or_false] at hentity
    obtain rfl | rfl | rfl := hentity
    · obtain ⟨hc, hrest⟩ := List.cons.inj htail
      exact hlt tail hc.symm hrest.symm
    · obtain ⟨hc, hrest⟩ := List.cons.inj htail
      exact hgt tail hc.symm hrest.symm
    · obtain ⟨hc, hrest⟩ := List.cons.inj htail
      exact hnbsp tail hc.symm hrest.symm
  | case5 => exact nil

theorem decodePass_cons (h : ∀ entity ∈ entities, ¬ entity <+: c :: rest) :
    decodePass (c :: rest) = c :: decodePass rest := by
  rw [decodePass]
  · rintro tail rfl rfl
    exact h "&lt;".toList (by decide) (List.prefix_append _ tail)
  · rintro tail rfl rfl
    exact h "&gt;".toList (by decide) (List.prefix_append _ tail)
  · rintro tail rfl rfl
    exact h "&nbsp;".toList (by decide) (List.prefix_append _ tail)

theorem decodeEntities_eq_decodePass (text : Text) : decodeEntities text = decodePass text := by
  induction text using entity_induction with
  | nil => rfl
  | entity row hrow rest ih =>
    have hpass : ∀ row ∈ entityTable, decodePass (row.1 ++ rest) = row.2 :: decodePass rest := by
      simp only [entityTable, List.forall_mem_cons]
      exact ⟨rfl, rfl, rfl, by simp⟩
    rw [decodeEntities_entity hrow, hpass row hrow, ih]
  | plain c rest hplain ih => rw [decodeEntities_cons hplain, decodePass_cons hplain, ih]

theorem prefix_of_decodeEntities {entity : Text} (hentity : entity ∈ entities)
    (h : entity <+: c :: decodeEntities rest) : entity <+: c :: rest := by
  rw [decodeEntities_eq_foldl] at h
  obtain ⟨tail, rfl, -⟩ := entity_shape hentity
  obtain ⟨rfl, htail⟩ := List.cons_prefix_cons.mp h
  have hclear : ∀ entity ∈ entities, ∀ row ∈ entityTable, row.2 ∉ entity.tail := by decide
  refine List.cons_prefix_cons.mpr ⟨rfl, ?_⟩
  exact prefix_of_foldl_exchange (List.Subset.refl _) (hclear _ hentity) htail

theorem decodeEntities_decodeEntities (text : Text) :
    decodeEntities (decodeEntities text) = decodeEntities text := by
  induction text using entity_induction with
  | nil => rfl
  | entity row hrow rest ih =>
    rw [decodeEntities_entity hrow, decodeEntities_cons (not_opens_special hrow _), ih]
  | plain c rest hplain ih =>
    rw [decodeEntities_cons hplain, decodeEntities_cons, ih]
    exact fun entity hentity hlead => hplain entity hentity (prefix_of_decodeEntities hentity hlead)

/-- Texts with no entity across the place where they meet are decoded one by one. -/
theorem decodeEntities_meeting {left right : Text}
    (h : ∀ entity ∈ entities, ¬ Bridges entity left right) :
    decodeEntities (left ++ right) = decodeEntities left ++ decodeEntities right := by
  induction left using entity_induction with
  | nil => rfl
  | entity row hrow rest ih =>
    have hrest : ∀ entity ∈ entities, ¬ Bridges entity rest right := fun entity hentity hbridges =>
      h entity hentity (hbridges.of_suffix (List.suffix_append row.1 rest))
    rw [List.append_assoc, decodeEntities_entity hrow, decodeEntities_entity hrow, ih hrest,
      List.cons_append]
  | plain c rest hplain ih =>
    have hrest : ∀ entity ∈ entities, ¬ Bridges entity rest right := fun entity hentity hbridges =>
      h entity hentity (hbridges.of_suffix (List.suffix_cons c rest))
    have hwhole : ∀ entity ∈ entities, ¬ entity <+: c :: (rest ++ right) :=
      fun entity hentity hlead => hplain entity hentity
        (prefix_of_not_bridges (List.cons_ne_nil c rest) hlead (h entity hentity))
    rw [List.cons_append, decodeEntities_cons hwhole, decodeEntities_cons hplain, ih hrest,
      List.cons_append]

theorem decodeEntities_append_cons (hc : ∀ entity ∈ entities, c ∉ entity) (front rest : Text) :
    decodeEntities (front ++ c :: rest) = decodeEntities front ++ c :: decodeEntities rest := by
  have hamp : c ≠ '&' := by
    rintro rfl
    exact hc "&lt;".toList (by decide) (by decide)
  rw [decodeEntities_meeting fun entity hentity => not_bridges_of_not_mem (hc entity hentity),
    decodeEntities_cons (not_opens_entity hamp rest)]

end Markup

end ClassSkeleton

import ClassSkeleton.Text.Basic

/-!
A file tree as a value. A place is the list of names that leads down to an entry, and a tree maps
places to entries. It is sound by construction: whatever has an entry lies in a directory, no
place has two entries, and every name is one that a directory can hold. The top of the tree is a
directory without an entry of its own. Relative paths start from the home of the tree, which no
operation moves.

There are directories and regular files under names in UTF-8. Links, special files, rights and
other names are left out.
-/
namespace ClassSkeleton

/-- File contents that are text in UTF-8, or bytes that are not. -/
inductive Content where
  | text (text : Text)
  | bytes (bytes : List UInt8)
  deriving DecidableEq, Repr

/-- A directory or a regular file. There are no links and no special files, so what is not a
directory is a file. -/
inductive Entry where
  | directory
  | file (content : Content)
  deriving DecidableEq, Repr

/-- The names that lead down to an entry. A name is Unicode text: one that is not UTF-8, and would
be printed with replacement characters, has no place here. -/
abbrev Place := List Text

/-- Longest name that a directory can hold, in bytes. -/
def nameLimit : Nat := 255

def isName (name : Text) : Bool :=
  !name.isEmpty && name != ['.'] && name != ['.', '.'] && '/' ∉ name && Char.ofNat 0 ∉ name &&
    Text.width name ≤ nameLimit

namespace Tree

/-- The entry of the first item for a place. -/
def find? (place : Place) : List (Place × Entry) → Option Entry
  | [] => none
  | item :: items => if item.1 = place then some item.2 else find? place items

/-- The entry at a place; the top is always a directory. -/
def entryIn (items : List (Place × Entry)) (place : Place) : Option Entry :=
  if place = [] then some .directory else find? place items

structure Sound (items : List (Place × Entry)) : Prop where
  nodup : (items.map (·.1)).Nodup
  below : ∀ place entry, find? place items = some entry →
    place ≠ [] ∧ entryIn items place.dropLast = some .directory
  named : ∀ item ∈ items, ∀ name ∈ item.1, isName name = true

end Tree

structure Tree where
  items : List (Place × Entry)
  sound : Tree.Sound items
  home : Place

namespace Tree

def get? (tree : Tree) (place : Place) : Option Entry := entryIn tree.items place

def isDirectoryAt (tree : Tree) (place : Place) : Bool := tree.get? place == some .directory

def bare (home : Place) : Tree := ⟨[], ⟨by simp, by simp [find?], by simp⟩, home⟩

theorem mem_of_find? {items : List (Place × Entry)} {place : Place} {entry : Entry}
    (h : find? place items = some entry) : (place, entry) ∈ items := by
  induction items with
  | nil => simp [find?] at h
  | cons item items ih =>
    simp only [find?] at h
    split at h
    · rename_i hp
      obtain rfl := Option.some.inj h
      exact List.mem_cons.mpr (Or.inl (by rw [← hp]))
    · exact List.mem_cons_of_mem _ (ih h)

theorem find?_filter (keep : Place → Bool) (items : List (Place × Entry)) (place : Place) :
    find? place (items.filter fun item => keep item.1) =
      if keep place then find? place items else none := by
  induction items with
  | nil => simp [find?]
  | cons item items ih =>
    rw [List.filter_cons]
    by_cases hp : item.1 = place
    · subst hp
      by_cases hk : keep item.1 = true
      · rw [if_pos hk, if_pos hk, find?, if_pos rfl, find?, if_pos rfl]
      · rw [if_neg hk, ih, if_neg hk, if_neg hk]
    · by_cases hk : keep item.1 = true
      · rw [if_pos hk, find?, if_neg hp, ih, find?, if_neg hp]
      · rw [if_neg hk, ih, find?, if_neg hp]

theorem nodup_filter {items : List (Place × Entry)} (keep : Place × Entry → Bool)
    (h : (items.map (·.1)).Nodup) : ((items.filter keep).map (·.1)).Nodup :=
  (List.filter_sublist.map _).nodup h

def putItems (items : List (Place × Entry)) (place : Place) (entry : Entry) :
    List (Place × Entry) :=
  (place, entry) :: items.filter fun item => decide (item.1 ≠ place)

theorem find?_putItems (items : List (Place × Entry)) (place other : Place) (entry : Entry) :
    find? other (putItems items place entry) =
      if place = other then some entry else find? other items := by
  simp only [putItems, find?]
  split
  · rfl
  · rename_i h
    rw [find?_filter (fun place' => decide (place' ≠ place)), if_pos]
    exact decide_eq_true fun he => h he.symm

/-- An entry may be put at a place in a directory under a proper name. A directory there stays a
directory. -/
def Admits (tree : Tree) (place : Place) (entry : Entry) : Prop :=
  place ≠ [] ∧ (∀ name ∈ place, isName name = true) ∧
    tree.get? place.dropLast = some .directory ∧
    (tree.get? place = some .directory → entry = .directory)

instance (tree : Tree) (place : Place) (entry : Entry) : Decidable (tree.Admits place entry) :=
  inferInstanceAs (Decidable (_ ∧ _ ∧ _ ∧ _))

theorem sound_put {tree : Tree} {place : Place} {entry : Entry} (h : tree.Admits place entry) :
    Sound (putItems tree.items place entry) := by
  obtain ⟨hne, hnames, hdir, hstay⟩ := h
  have entryIn_put : ∀ other, entryIn tree.items other = some .directory →
      entryIn (putItems tree.items place entry) other = some .directory := by
    intro other ho
    simp only [entryIn, find?_putItems] at ho ⊢
    split
    · rfl
    · rename_i hother
      rw [if_neg hother] at ho
      split
      · rename_i he
        subst he
        rw [hstay (by simpa only [get?, entryIn, if_neg hother] using ho)]
      · exact ho
  refine ⟨?_, ?_, ?_⟩
  · simp only [putItems, List.map_cons, List.nodup_cons]
    refine ⟨?_, nodup_filter _ tree.sound.nodup⟩
    intro hmem
    obtain ⟨item, hitem, rfl⟩ := List.mem_map.mp hmem
    exact absurd rfl (of_decide_eq_true (List.mem_filter.mp hitem).2)
  · intro other found hf
    rw [find?_putItems] at hf
    split at hf
    · rename_i he
      subst he
      exact ⟨hne, entryIn_put _ hdir⟩
    · obtain ⟨hother, hbelow⟩ := tree.sound.below other found hf
      exact ⟨hother, entryIn_put _ hbelow⟩
  · intro item hitem
    rcases List.mem_cons.mp hitem with rfl | hitem
    · exact hnames
    · exact tree.sound.named item (List.mem_filter.mp hitem).1

/-- The tree with an entry put at a place; one that cannot stand there is not put. -/
def put (tree : Tree) (place : Place) (entry : Entry) : Tree :=
  if h : tree.Admits place entry then
    { tree with items := putItems tree.items place entry, sound := sound_put h }
  else tree

theorem get?_put {tree : Tree} {place : Place} {entry : Entry} (h : tree.Admits place entry)
    (other : Place) :
    (tree.put place entry).get? other = if place = other then some entry else tree.get? other := by
  have hne := h.1
  simp only [put, dif_pos h, get?, entryIn, find?_putItems]
  split
  · rename_i ho
    subst ho
    simp [hne]
  · rfl

theorem sound_prune (tree : Tree) {place : Place} :
    Sound (tree.items.filter fun item => !place.isPrefixOf item.1) := by
  refine ⟨nodup_filter _ tree.sound.nodup, ?_, fun item hitem =>
    tree.sound.named item (List.mem_filter.mp hitem).1⟩
  intro other found hf
  rw [find?_filter (fun other => !place.isPrefixOf other)] at hf
  split at hf
  · rename_i hkeep
    obtain ⟨hother, hbelow⟩ := tree.sound.below other found hf
    refine ⟨hother, ?_⟩
    simp only [entryIn] at hbelow ⊢
    split
    · rfl
    · rename_i hdrop
      rw [if_neg hdrop] at hbelow
      rw [find?_filter (fun other => !place.isPrefixOf other), if_pos, hbelow]
      simp only [Bool.not_eq_true'] at hkeep ⊢
      rw [Bool.eq_false_iff] at hkeep ⊢
      intro hp
      apply hkeep
      rw [List.isPrefixOf_iff_prefix] at hp ⊢
      exact hp.trans (List.dropLast_prefix other)
  · simp at hf

/-- The tree without the entry at a place and all that lies below it. -/
def prune (tree : Tree) (place : Place) : Tree :=
  { tree with
    items := tree.items.filter fun item => !place.isPrefixOf item.1
    sound := tree.sound_prune }

theorem get?_prune (tree : Tree) {place : Place} (hplace : place ≠ []) (other : Place) :
    (tree.prune place).get? other =
      if place.isPrefixOf other then none else tree.get? other := by
  simp only [prune, get?, entryIn, find?_filter (fun other => !place.isPrefixOf other)]
  by_cases ho : other = []
  · subst ho
    obtain ⟨name, names, rfl⟩ := List.exists_cons_of_ne_nil hplace
    simp [List.isPrefixOf]
  · cases h : place.isPrefixOf other <;> simp [ho]

theorem home_put (tree : Tree) (place : Place) (entry : Entry) :
    (tree.put place entry).home = tree.home := by
  unfold put
  split <;> rfl

theorem home_prune (tree : Tree) (place : Place) : (tree.prune place).home = tree.home := rfl

/-- A tree with nothing but the directories that lead to its home. -/
def ofHome (home : Place) : Tree :=
  (List.range home.length).foldl
    (fun tree count => tree.put (home.take (count + 1)) .directory) (bare home)

/-- What differs between two trees: places with a new entry, then places without one any more. -/
def changes (before after : Tree) : List (Place × Option Entry) :=
  (after.items.filter fun item => before.get? item.1 != some item.2).map
      (fun item => (item.1, some item.2)) ++
    (before.items.filter fun item => (after.get? item.1).isNone).map fun item => (item.1, none)

end Tree

end ClassSkeleton

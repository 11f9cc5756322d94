import ClassSkeleton.Tree.Access
import Mathlib.Data.List.Induction

/-!
Ways through a tree. Names lead from place to place by themselves; whether a tree lets anyone
pass is a question about the places on the way. A walk that ends in a directory has passed
nothing but directories, and the target of a path is found exactly when its way is open.
-/
namespace ClassSkeleton.Tree

/-- What stands at each place. -/
abbrev View := Place → Option Entry

def onward (here : Place) (name : Text) : Place :=
  if name = ['.'] then here else if name = ['.', '.'] then here.dropLast else here ++ [name]

/-- Where names lead in the end. -/
def seat (here : Place) (names : List Text) : Place := names.foldl onward here

/-- The places that names lead to one after the other, without the start. -/
def trail (here : Place) : List Text → List Place
  | [] => []
  | name :: names => onward here name :: trail (onward here name) names

/-- Every place on the way is a directory. -/
def Opens (view : View) (here : Place) (names : List Text) : Prop :=
  ∀ place ∈ here :: trail here names, view place = some .directory

theorem isDots_eq_false_iff {name : Text} :
    isDots name = false ↔ name ≠ ['.'] ∧ name ≠ ['.', '.'] := by
  simp [isDots]

theorem onward_of_not_dots (here : Place) {name : Text} (h : isDots name = false) :
    onward here name = here ++ [name] := by
  rw [isDots_eq_false_iff] at h
  rw [onward, if_neg h.1, if_neg h.2]

@[simp] theorem seat_nil (here : Place) : seat here [] = here := rfl

@[simp] theorem seat_append (here : Place) (front back : List Text) :
    seat here (front ++ back) = seat (seat here front) back := by
  simp only [seat, List.foldl_append]

@[simp] theorem trail_append (here : Place) (front back : List Text) :
    trail here (front ++ back) = trail here front ++ trail (seat here front) back := by
  induction front generalizing here with
  | nil => rfl
  | cons name front ih => simp only [List.cons_append, trail, ih, seat, List.foldl_cons]

theorem seat_mem (here : Place) (names : List Text) :
    seat here names ∈ here :: trail here names := by
  induction names generalizing here with
  | nil => exact List.mem_cons_self
  | cons name names ih => exact List.mem_cons_of_mem _ (ih (onward here name))

theorem seat_of_not_dots (here : Place) {names : List Text}
    (h : ∀ name ∈ names, isDots name = false) : seat here names = here ++ names := by
  induction names generalizing here with
  | nil => simp
  | cons name names ih =>
    have hname : onward here name = here ++ [name] := onward_of_not_dots here (h name (by simp))
    have hrest : ∀ other ∈ names, isDots other = false := fun other ho =>
      h other (List.mem_cons_of_mem _ ho)
    calc seat here (name :: names)
        = seat (here ++ [name]) names := by rw [seat, List.foldl_cons, hname, seat]
      _ = here ++ name :: names := by rw [ih _ hrest, List.append_assoc, List.singleton_append]

theorem mem_trail_of_not_dots {here place : Place} {names : List Text}
    (h : ∀ name ∈ names, isDots name = false) (hplace : place ∈ trail here names) :
    ∃ front name, front ++ [name] <+: names ∧ place = here ++ front ++ [name] := by
  induction names generalizing here with
  | nil => simp [trail] at hplace
  | cons name names ih =>
    have hname : onward here name = here ++ [name] := onward_of_not_dots here (h name (by simp))
    rw [trail, hname] at hplace
    rcases List.mem_cons.mp hplace with rfl | hplace
    · exact ⟨[], name, by simp, by simp⟩
    · obtain ⟨front, last, hfront, rfl⟩ :=
        ih (fun other ho => h other (List.mem_cons_of_mem _ ho)) hplace
      exact ⟨name :: front, last, by simpa using hfront, by simp⟩

namespace Opens

variable {view view' : View} {here : Place} {names front back : List Text}

theorem start (h : Opens view here names) : view here = some .directory := h here (by simp)

theorem seat (h : Opens view here names) : view (Tree.seat here names) = some .directory :=
  h _ (seat_mem here names)

theorem mono (h : Opens view here names)
    (hkeep : ∀ place, view place = some .directory → view' place = some .directory) :
    Opens view' here names := fun place hplace => hkeep place (h place hplace)

end Opens

@[simp] theorem opens_nil (view : View) (here : Place) :
    Opens view here [] ↔ view here = some .directory := by simp [Opens, trail]

theorem opens_cons (view : View) (here : Place) (name : Text) (names : List Text) :
    Opens view here (name :: names) ↔
      view here = some .directory ∧ Opens view (onward here name) names := by
  simp [Opens, trail]

theorem opens_append (view : View) (here : Place) (front back : List Text) :
    Opens view here (front ++ back) ↔
      Opens view here front ∧ Opens view (seat here front) back := by
  induction front generalizing here with
  | nil => simpa [opens_nil] using fun h => Opens.start h
  | cons name front ih =>
    rw [List.cons_append, opens_cons, opens_cons, ih, and_assoc]
    rfl

variable {tree : Tree} {here place : Place} {names : List Text}

theorem get?_nil (tree : Tree) : tree.get? [] = some .directory := by simp [get?, entryIn]

theorem isDirectoryAt_iff :
    tree.isDirectoryAt place = true ↔ tree.get? place = some .directory := by
  simp [isDirectoryAt]

theorem isDirectoryAt_eq_false (h : tree.get? place ≠ some .directory) :
    tree.isDirectoryAt place = false := by
  simpa [isDirectoryAt] using h

theorem get?_dropLast {entry : Entry} (h : tree.get? place = some entry) :
    tree.get? place.dropLast = some .directory := by
  by_cases hplace : place = []
  · subst hplace
    exact get?_nil tree
  · rw [get?, entryIn, if_neg hplace] at h
    exact (tree.sound.below place entry h).2

theorem get?_of_concat {name : Text} {entry : Entry}
    (h : tree.get? (place ++ [name]) = some entry) : tree.get? place = some .directory := by
  simpa using get?_dropLast h

theorem get?_of_append {back : Place} {entry : Entry} (hback : back ≠ [])
    (h : tree.get? (place ++ back) = some entry) : tree.get? place = some .directory := by
  induction back using List.reverseRecOn generalizing entry with
  | nil => exact absurd rfl hback
  | append_singleton back name ih =>
    rw [← List.append_assoc] at h
    have hdir := get?_of_concat h
    cases back with
    | nil => simpa using hdir
    | cons next back => exact ih (by simp) hdir

theorem isName_of_get? {entry : Entry} (h : tree.get? place = some entry) :
    ∀ name ∈ place, isName name = true := by
  by_cases hplace : place = []
  · subst hplace
    simp
  · rw [get?, entryIn, if_neg hplace] at h
    exact tree.sound.named _ (mem_of_find? h)

theorem width_le_of_get? {name : Text} {entry : Entry}
    (h : tree.get? (place ++ [name]) = some entry) : Text.width name ≤ nameLimit := by
  have hname := isName_of_get? h name (by simp)
  simp only [isName, Bool.and_eq_true, decide_eq_true_eq] at hname
  exact hname.2

theorem admits_concat {name : Text} {entry : Entry} (hplace : tree.get? place = some .directory)
    (hname : isName name = true)
    (hkeep : tree.get? (place ++ [name]) = some .directory → entry = .directory) :
    tree.Admits (place ++ [name]) entry := by
  refine ⟨by simp, fun other hother => ?_, by simpa using hplace, hkeep⟩
  rcases List.mem_append.mp hother with hother | hother
  · exact isName_of_get? hplace other hother
  · rw [List.mem_singleton.mp hother]
    exact hname

/-- Dots lead from a directory to a directory, so a name that leads elsewhere is no dots. -/
theorem not_dots_of_onward {name : Text} (hhere : tree.get? here = some .directory)
    (h : tree.get? (onward here name) ≠ some .directory) : isDots name = false := by
  rw [Bool.eq_false_iff]
  intro hdots
  simp only [isDots, Bool.or_eq_true, beq_iff_eq] at hdots
  rcases hdots with rfl | rfl
  · rw [onward, if_pos rfl] at h
    exact h hhere
  · rw [onward, if_neg (by decide), if_pos rfl] at h
    exact h (get?_dropLast hhere)

theorem enter_of_there {name : Text} {entry : Entry} (hhere : tree.get? here = some .directory)
    (hnext : tree.get? (onward here name) = some entry) :
    tree.enter here name = .ok (onward here name) := by
  have hdir : tree.isDirectoryAt here = true := isDirectoryAt_iff.mpr hhere
  unfold enter onward at *
  simp only [hdir, Bool.not_true, Bool.false_eq_true, if_false]
  split
  · rfl
  · rename_i hdot
    rw [if_neg hdot] at hnext
    split
    · rfl
    · rename_i hdots
      rw [if_neg hdots] at hnext
      rw [if_neg (Nat.not_lt.mpr (width_le_of_get? hnext)), hnext]
      simp

theorem enter_of_missing {name : Text} (hhere : tree.get? here = some .directory)
    (hwidth : ¬ nameLimit < Text.width name) (hmissing : tree.get? (onward here name) = none) :
    tree.enter here name = .error .notFound := by
  have hdots : isDots name = false := not_dots_of_onward hhere (by simp [hmissing])
  rw [onward_of_not_dots here hdots] at hmissing
  rw [isDots_eq_false_iff] at hdots
  rw [enter, if_neg (by simp [isDirectoryAt_iff.mpr hhere]), if_neg hdots.1, if_neg hdots.2,
    if_neg hwidth, hmissing]
  rfl

theorem enter_eq_ok {name : Text} (h : tree.enter here name = .ok place) :
    tree.get? here = some .directory ∧ place = onward here name ∧
      (isDots name = false → (tree.get? place).isSome) := by
  unfold enter at h
  split at h
  · simp at h
  rename_i hdir
  refine ⟨by simpa [isDirectoryAt] using hdir, ?_⟩
  split at h
  · rename_i hdot
    obtain rfl := Except.ok.inj h
    exact ⟨by rw [onward, if_pos hdot], by simp [isDots, hdot]⟩
  rename_i hdot
  split at h
  · rename_i hdots
    obtain rfl := Except.ok.inj h
    exact ⟨by rw [onward, if_neg hdot, if_pos hdots], by simp [isDots, hdots]⟩
  rename_i hdots
  split at h
  · simp at h
  split at h
  · simp at h
  rename_i hsome
  obtain rfl := Except.ok.inj h
  refine ⟨by rw [onward, if_neg hdot, if_neg hdots], fun _ => ?_⟩
  simpa [Option.isSome_iff_ne_none] using hsome

theorem walk_of_opens (h : Opens tree.get? here names) :
    tree.walk here names = .ok (seat here names) := by
  induction names generalizing here with
  | nil => rfl
  | cons name names ih =>
    obtain ⟨hhere, hrest⟩ := (opens_cons _ _ _ _).mp h
    rw [walk, enter_of_there hhere hrest.start]
    exact ih hrest

theorem opens_of_walk (h : tree.walk here names = .ok place)
    (hplace : tree.get? place = some .directory) :
    Opens tree.get? here names ∧ place = seat here names := by
  induction names generalizing here with
  | nil =>
    obtain rfl := Except.ok.inj h
    exact ⟨(opens_nil _ _).mpr hplace, rfl⟩
  | cons name names ih =>
    rw [walk] at h
    split at h
    · simp at h
    · rename_i next hnext
      obtain ⟨hhere, rfl, -⟩ := enter_eq_ok hnext
      obtain ⟨hopens, hseat⟩ := ih h
      exact ⟨(opens_cons _ _ _ _).mpr ⟨hhere, hopens⟩, hseat⟩

theorem walk_append (here : Place) (front back : List Text) :
    tree.walk here (front ++ back) =
      match tree.walk here front with
      | .error e => .error e
      | .ok place => tree.walk place back := by
  induction front generalizing here with
  | nil => rfl
  | cons name front ih =>
    rw [List.cons_append, walk, walk]
    cases tree.enter here name with
    | error e => rfl
    | ok place => exact ih place

theorem walk_concat {name : Text} : tree.walk here (names ++ [name]) = .ok place ↔
    ∃ middle, tree.walk here names = .ok middle ∧ tree.enter middle name = .ok place := by
  rw [walk_append]
  cases tree.walk here names with
  | error e => simp
  | ok middle => cases henter : tree.enter middle name <;> simp [walk, henter]

end ClassSkeleton.Tree

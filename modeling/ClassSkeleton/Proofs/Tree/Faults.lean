import ClassSkeleton.Proofs.Tree.Drift
import Mathlib.Logic.Relation

/-!
Scripts on a tree whose operations may fail. A faulty operation can fail for no reason that the
tree shows, and leave some of its work behind: some of the directories, or a part of what was to be
written. Renaming is done in one step. A script is followed from operation to operation, so that
what holds between two of them can be said as well as what holds at the end.
-/
namespace ClassSkeleton

open ClassSkeleton.Tree

namespace Operation

/-- What an operation may come to: its outcome and the tree it leaves. -/
inductive Ends (faulty : Operation → Prop) (operation : Operation) (tree : Tree) :
    Except IoCause Unit → Tree → Prop
  | done : Ends faulty operation tree (operation.apply tree).1 (operation.apply tree).2
  | undone (cause : IoCause) (hfaulty : faulty operation) :
      Ends faulty operation tree (.error cause) tree
  /-- Directories are made from the top, and the last ones are missing. -/
  | short (cause : IoCause) (hfaulty : faulty operation) (path : Path) (count : Nat)
      (hmakes : operation = .makeDirectories path) :
      Ends faulty operation tree (.error cause)
        (tree.makeDirectories (path.ancestors.drop count)).2
  /-- The file holds anything. -/
  | torn (cause : IoCause) (hfaulty : faulty operation) (path : Path) (text : Text)
      (hwrites : operation = .write path text) (place : Place) (old other : Content)
      (hfile : tree.lookup path = .ok (place, .file old)) :
      Ends faulty operation tree (.error cause) (tree.put place (.file other))

variable {faulty : Operation → Prop} {operation : Operation} {tree left : Tree}
  {outcome : Except IoCause Unit}

theorem Ends.drifts (h : operation.Ends faulty tree outcome left) :
    Drifts (operation.made tree) (operation.slots tree) tree left := by
  cases h with
  | done => exact operation.apply_drifts tree
  | undone cause hfaulty => exact .refl _ _ _
  | short cause hfaulty path count hmakes =>
    rw [hmakes]
    exact (makeDirectories_drifts (path.ancestors.drop count) tree).mono
      (List.map_subset _ (List.drop_subset count path.ancestors)) (List.Subset.refl _)
  | torn cause hfaulty path text hwrites place old other hfile =>
    rw [hwrites]
    change Drifts [] [tree.goal path] tree _
    rw [← (lookup_eq_ok hfile).1]
    exact drifts_put_file tree place other

theorem Ends.of_ok {u : Unit} (h : operation.Ends faulty tree (.ok u) left) :
    operation.apply tree = (.ok (), left) := by
  generalize houtcome : (Except.ok u : Except IoCause Unit) = outcome at h
  cases h with
  | done => rfl
  | undone => cases houtcome
  | short => cases houtcome
  | torn => cases houtcome

/-- An operation that is not faulty is done as far as it can be. -/
theorem Ends.of_sound (h : operation.Ends faulty tree outcome left) (hsound : ¬ faulty operation) :
    operation.apply tree = (outcome, left) := by
  cases h with
  | done => rfl
  | undone _ hfaulty => exact absurd hfaulty hsound
  | short _ hfaulty => exact absurd hfaulty hsound
  | torn _ hfaulty => exact absurd hfaulty hsound

theorem Ends.drifts_from {made slots : List Place} {last : Tree}
    (hends : operation.Ends faulty left outcome last) (h : Drifts made slots tree left)
    (hmade : operation.made left ⊆ made) (hslots : operation.slots left ⊆ slots) :
    Drifts made slots tree last :=
  h.trans (hends.drifts.mono hmade hslots)

theorem Ends.rename_error {source path : Path} {cause : IoCause}
    (h : (rename source path).Ends faulty tree (.error cause) left) : left = tree := by
  generalize houtcome : (Except.error cause : Except IoCause Unit) = outcome at h
  cases h with
  | done =>
    simp only [apply] at houtcome ⊢
    cases hrename : tree.rename source path with
    | ok moved => simp [hrename, settle] at houtcome
    | error e => rfl
  | undone => rfl
  | short _ _ _ _ hmakes => cases hmakes
  | torn _ _ _ _ hwrites => cases hwrites

theorem Ends.rename_ok {source path : Path} {u : Unit}
    (h : (rename source path).Ends faulty tree (.ok u) left) :
    tree.rename source path = .ok left := by
  have happly := h.of_ok
  cases hrename : tree.rename source path with
  | ok moved => simpa [apply, settle, hrename] using happly
  | error e => simp [apply, settle, hrename] at happly

theorem Ends.write_ok {path : Path} {text : Text} {u : Unit}
    (h : (write path text).Ends faulty tree (.ok u) left) :
    tree.writeFile path text = .ok left := by
  have happly := h.of_ok
  cases hwrite : tree.writeFile path text with
  | ok written => simpa [apply, settle, hwrite] using happly
  | error e => simp [apply, settle, hwrite] at happly

theorem Ends.remove_isFile {path : Path} {absolute : Bool} {dirs : List Text} {name : Text}
    (hleads : path.LeadsTo absolute dirs name) (h : (remove path).Ends faulty tree outcome left)
    (hsound : ¬ faulty (remove path)) : left.isFile path = false := by
  have happly := h.of_sound hsound
  cases hremove : tree.removeFile path with
  | ok removed =>
    have hleft : removed = left := by simpa [apply, settle, hremove] using congrArg Prod.snd happly
    exact hleft ▸ isFile_of_removed hleads hremove
  | error e =>
    have hleft : tree = left := by simpa [apply, settle, hremove] using congrArg Prod.snd happly
    exact hleft ▸ isFile_of_not_removed hleads hremove

end Operation

namespace Script

variable {α β : Type} {faulty : Operation → Prop}

inductive Step (faulty : Operation → Prop) : Script α × Tree → Script α × Tree → Prop
  | perform {operation : Operation} {next : Except IoCause Unit → Script α} {tree left : Tree}
      {outcome : Except IoCause Unit} (h : operation.Ends faulty tree outcome left) :
      Step faulty (.perform operation next, tree) (next outcome, left)
  | look (next : Tree → Script α) (tree : Tree) :
      Step faulty (.look next, tree) (next tree, tree)

/-- From a script on a tree one may come to a point: what is left to do, and the tree there. -/
abbrev Comes (faulty : Operation → Prop) : Script α × Tree → Script α × Tree → Prop :=
  Relation.ReflTransGen (Step faulty)

/-- A run without faults is one way to the end of a script. -/
theorem comes_run (faulty : Operation → Prop) (script : Script α) (tree : Tree) :
    Comes faulty (script, tree) (.done (script.run tree).1, (script.run tree).2) := by
  induction script generalizing tree with
  | done result => exact .refl
  | perform operation next ih => exact .head (.perform .done) (ih _ _)
  | look next ih => exact .head (.look next tree) (ih _ _)

/-- The operations of a run without faults, and how each of them ended. -/
def trace : Script α → Tree → List (Operation × Except IoCause Unit)
  | .done _, _ => []
  | .perform operation next, tree =>
    let (outcome, left) := operation.apply tree
    (operation, outcome) :: (next outcome).trace left
  | .look next, tree => (next tree).trace tree

theorem trace_bind (script : Script α) (rest : α → Script β) (tree : Tree) :
    (script >>= rest).trace tree =
      script.trace tree ++ (rest (script.run tree).1).trace (script.run tree).2 := by
  induction script generalizing tree with
  | done result => rfl
  | perform operation next ih => exact congrArg (_ :: ·) (ih _ _)
  | look next ih => exact ih _ _

/-- What the rest of a script does on the way to its result, the whole script does. -/
theorem mem_trace_of_bind {script : Script α} {rest : α → Script β} {tree : Tree} {result : β}
    {performed : Operation × Except IoCause Unit}
    (h : ∀ first left, script.run tree = (first, left) → ((rest first).run left).1 = result →
      performed ∈ (rest first).trace left)
    (hresult : ((script >>= rest).run tree).1 = result) :
    performed ∈ (script >>= rest).trace tree := by
  rw [run_bind] at hresult
  rw [trace_bind]
  exact List.mem_append_right _ (h _ _ rfl hresult)

/-- Between any two operations of the script the tree meets the condition, and at the end also the
one on result and tree. -/
def Secures (faulty : Operation → Prop) (between : Tree → Prop) (goal : α → Tree → Prop) :
    Script α → Tree → Prop
  | .done result, tree => between tree ∧ goal result tree
  | .perform operation next, tree => between tree ∧ ∀ outcome left,
      operation.Ends faulty tree outcome left → (next outcome).Secures faulty between goal left
  | .look next, tree => between tree ∧ (next tree).Secures faulty between goal tree

variable {between between' : Tree → Prop} {goal goal' : α → Tree → Prop}
  {script : Script α} {tree left : Tree}

theorem Secures.now (h : script.Secures faulty between goal tree) : between tree := by
  cases script with
  | done result => exact h.1
  | perform operation next => exact h.1
  | look next => exact h.1

theorem Secures.step {point : Script α × Tree} (h : script.Secures faulty between goal tree)
    (hstep : Step faulty (script, tree) point) : point.1.Secures faulty between goal point.2 := by
  cases hstep with
  | perform hends => exact h.2 _ _ hends
  | look next => exact h.2

theorem Secures.comes {point : Script α × Tree} (h : script.Secures faulty between goal tree)
    (hcomes : Comes faulty (script, tree) point) :
    point.1.Secures faulty between goal point.2 := by
  induction hcomes with
  | refl => exact h
  | tail _ hstep ih => exact Secures.step ih hstep

theorem Secures.mono (h : script.Secures faulty between goal tree)
    (hbetween : ∀ tree, between tree → between' tree)
    (hgoal : ∀ result tree, goal result tree → goal' result tree) :
    script.Secures faulty between' goal' tree := by
  induction script generalizing tree with
  | done result => exact ⟨hbetween _ h.1, hgoal _ _ h.2⟩
  | perform operation next ih =>
    exact ⟨hbetween _ h.1, fun outcome left hends => ih outcome (h.2 outcome left hends)⟩
  | look next ih => exact ⟨hbetween _ h.1, ih tree h.2⟩

theorem Secures.weaken (h : script.Secures faulty between goal tree)
    (hbetween : ∀ tree, between tree → between' tree) : script.Secures faulty between' goal tree :=
  h.mono hbetween fun _ _ hgoal => hgoal

theorem Secures.run (h : script.Secures faulty between goal tree) :
    goal (script.run tree).1 (script.run tree).2 := (h.comes (comes_run faulty script tree)).2

/-- A script followed by another one that starts from what the first one secures. -/
theorem Secures.bind {rest : α → Script β} {goal' : β → Tree → Prop}
    (h : script.Secures faulty between goal tree)
    (hrest : ∀ result tree, goal result tree → (rest result).Secures faulty between goal' tree) :
    (script >>= rest).Secures faulty between goal' tree := by
  induction script generalizing tree with
  | done result => exact hrest result tree h.2
  | perform operation next ih =>
    exact ⟨h.1, fun outcome left hends => ih outcome (h.2 outcome left hends)⟩
  | look next ih => exact ⟨h.1, ih tree h.2⟩

theorem secures_operation {operation : Operation} {goal : Except IoCause Unit → Tree → Prop}
    (hbetween : between tree)
    (h : ∀ outcome left, operation.Ends faulty tree outcome left →
      between left ∧ goal outcome left) :
    (Script.operation operation).Secures faulty between goal tree :=
  ⟨hbetween, h⟩

end Script

end ClassSkeleton

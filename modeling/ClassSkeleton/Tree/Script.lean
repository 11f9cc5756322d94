import ClassSkeleton.Tree.Access

/-!
A script is a program on a file tree, broken up into single operations. Each operation succeeds
or fails, and what the script does next may hang on that; between two operations others may look
at the tree. Running a script performs its operations one after the other.
-/
namespace ClassSkeleton

inductive Operation where
  | makeDirectories (path : Path)
  | create (path : Path)
  | write (path : Path) (text : Text)
  | flush (path : Path)
  | rename (source target : Path)
  | remove (path : Path)
  deriving DecidableEq, Repr

namespace Operation

/-- A new tree, or the old one with the cause. -/
def settle (tree : Tree) : Except IoCause Tree → Except IoCause Unit × Tree
  | .ok tree => (.ok (), tree)
  | .error e => (.error e, tree)

def apply (operation : Operation) (tree : Tree) : Except IoCause Unit × Tree :=
  match operation with
  | .makeDirectories path => tree.makeDirectories path.ancestors
  | .create path => settle tree (tree.createFile path)
  | .write path text => settle tree (tree.writeFile path text)
  | .flush _ => (.ok (), tree)
  | .rename source target => settle tree (tree.rename source target)
  | .remove path => settle tree (tree.removeFile path)

end Operation

inductive Script (α : Type) where
  | done (result : α)
  | perform (operation : Operation) (next : Except IoCause Unit → Script α)
  | look (next : Tree → Script α)

namespace Script

variable {α β : Type}

def bind : Script α → (α → Script β) → Script β
  | .done result, rest => rest result
  | .perform operation next, rest => .perform operation fun outcome => (next outcome).bind rest
  | .look next, rest => .look fun tree => (next tree).bind rest

instance : Monad Script where
  pure := .done
  bind := Script.bind

def operation (operation : Operation) : Script (Except IoCause Unit) := .perform operation .done

def see (view : Tree → α) : Script α := .look fun tree => .done (view tree)

def run : Script α → Tree → α × Tree
  | .done result, tree => (result, tree)
  | .perform operation next, tree =>
    let (outcome, tree) := operation.apply tree
    (next outcome).run tree
  | .look next, tree => (next tree).run tree

theorem run_bind (script : Script α) (rest : α → Script β) (tree : Tree) :
    (script >>= rest).run tree = (rest (script.run tree).1).run (script.run tree).2 := by
  induction script generalizing tree with
  | done result => rfl
  | perform operation next ih => exact ih _ _
  | look next ih => exact ih _ _

end Script

end ClassSkeleton

import ClassSkeleton.Proofs.Stage.Solo
import ClassSkeleton.Proofs.Tree.Again

/-!
A page that is stored, or could not be. Once it is stored it is in the cache; if it could not be
stored, no page appears, and trying again fails again and changes nothing. That no page appears by
accident takes a root that is found: with two dots in its path, making the way to it may uncover
files that were below its place before.
-/
namespace ClassSkeleton

open ClassSkeleton.Tree Storage

namespace Storage

variable {home : Place} {path : Path} {above : List Text} {name contents : Text} {view : View}

theorem firm_replace (home : Place) (path : Path) (above : List Text) (name contents : Text) :
    (replaceAct home path above name contents).Firm :=
  Act.firm_andThen (Act.firm_put _ _ _) Act.firm_skip (Act.firm_move _ _ _ _)
    (Act.isLocal_put _ _ (List.mem_singleton_self _))

theorem firm_pair (home : Place) (header source : Path) (above : List Text)
    (headerName sourceName : Text) (skeleton : Skeleton) :
    (pairAct home header source above headerName sourceName skeleton).Firm := by
  have hput : ∀ able slot content, (Act.put able slot content).IsLocal [slot] :=
    fun _ _ _ => Act.isLocal_put _ _ (List.mem_singleton_self _)
  have hmove : ∀ able source target content, (Act.move able source target content).IsLocal
      [source, target] := fun _ _ _ _ =>
    Act.isLocal_move _ _ List.mem_cons_self (List.mem_cons_of_mem _ (List.mem_singleton_self _))
  have hcommit : (commitAct home header source above headerName sourceName skeleton).Firm :=
    Act.firm_andThen (Act.firm_move _ _ _ _) (Act.firm_clear _)
      (Act.firm_andThen (Act.firm_move _ _ _ _) (Act.firm_clear _) Act.firm_skip (hmove _ _ _ _))
      (hmove _ _ _ _)
  have hfinish : (finishAct home header source above headerName sourceName skeleton).Firm :=
    Act.firm_andThen (Act.firm_put _ _ _) (Act.firm_clear _) hcommit (hput _ _ _)
  exact Act.firm_andThen (Act.firm_put _ _ _) Act.firm_skip hfinish (hput _ _ _)

end Storage

namespace Path

/-- The path goes nowhere up. -/
def IsDownward (path : Path) : Prop := ∀ name ∈ path.names, name ≠ ['.', '.']

instance (path : Path) : Decidable path.IsDownward :=
  inferInstanceAs (Decidable (∀ name ∈ path.names, name ≠ ['.', '.']))

end Path

namespace Tree

/-- A root whose path goes nowhere up, or to which the way is open. -/
def Finds (tree : Tree) (root : Path) : Prop := root.IsDownward ∨ tree.Reaches root

variable {tree left : Tree} {root : Path}

theorem isPrefix_seat {here place : Place} {names : List Text}
    (h : ∀ name ∈ names, name ≠ ['.', '.']) (hplace : place ∈ here :: trail here names) :
    place <+: seat here names := by
  induction names generalizing here place with
  | nil =>
    rw [trail, List.mem_singleton] at hplace
    exact hplace ▸ List.prefix_rfl
  | cons name names ih =>
    have hrest : ∀ passed ∈ onward here name :: trail (onward here name) names,
        passed <+: seat (onward here name) names := fun passed hpassed =>
      ih (fun other hmem => h other (List.mem_cons_of_mem _ hmem)) hpassed
    rcases List.mem_cons.mp hplace with rfl | hplace
    · refine List.IsPrefix.trans ?_ (hrest _ List.mem_cons_self)
      rw [onward, if_neg (h name List.mem_cons_self)]
      split
      · exact List.prefix_rfl
      · exact List.prefix_append _ _
    · exact hrest place hplace

/-- Whatever lies below a root that is found can be reached through it. -/
theorem Finds.reaches (h : tree.Finds root) {place : Place} {entry : Entry}
    (hinside : IsInside place (root.rootPlace tree.home)) (hentry : tree.get? place = some entry) :
    tree.Reaches root := by
  rcases h with hdown | hopen
  · intro passed hpassed
    obtain ⟨between, rfl⟩ := hinside.1
    obtain ⟨rest, hrest⟩ := isPrefix_seat hdown hpassed
    have hbetween : between ≠ [] := fun hnil => hinside.2 (by rw [hnil, List.append_nil])
    rw [Path.rootPlace, ← hrest, List.append_assoc] at hentry
    exact get?_of_append (by simp [hbetween]) hentry
  · exact hopen

theorem Finds.runAll (h : tree.Finds root) (hhome : left.home = tree.home) {edits : List Edit}
    (hview : left.get? = Edit.runAll edits tree.get?) : left.Finds root := by
  rcases h with hdown | hopen
  · exact .inl hdown
  · refine .inr ?_
    rw [Reaches, hhome, hview]
    exact Edit.opens_runAll edits hopen

end Tree

section Stored

variable {entity stored : Entity} {root : Path} {tree left : Tree} {body : Text}

theorem isInside_filePlace (home : Place) (root : Path) (entity : Entity) (ending : Text) :
    IsInside (entity.filePlace home root ending) (root.rootPlace home) := by
  rw [Entity.filePlace, Entity.folder, List.append_assoc]
  exact ⟨List.prefix_append _ _, by simp⟩

theorem isCached_of_file (hname : '/' ∉ entity.name) (hfinds : tree.Finds root)
    (hcheck : checkPath (entity.cachePath root) = .ok ())
    (hfile : isFileAt tree.get? (entity.pagePlace tree.home root) = true) :
    isCached tree root entity = true := by
  obtain ⟨content, hentry⟩ := isFileAt_iff.mp hfile
  exact (isCached_iff hname).mpr
    ⟨hcheck, hfinds.reaches (isInside_filePlace _ _ _ _) hentry, hfile⟩

theorem firm_pageEdit (home : Place) (root : Path) (entity : Entity) (body : Text) :
    (entity.pageEdit home root body).act.Firm := firm_replace _ _ _ _ _

theorem pageEdit_congr (h : entity.name = stored.name) (home : Place) (root : Path) (body : Text) :
    entity.pageEdit home root body = stored.pageEdit home root body := by
  obtain ⟨name, url, hqualified⟩ := entity
  obtain ⟨otherName, otherUrl, hother⟩ := stored
  obtain rfl : name = otherName := h
  rfl

theorem isCached_of_same (hname : '/' ∉ entity.name) (hhome : left.home = tree.home)
    (hview : left.get? = tree.get?) : isCached left root entity = isCached tree root entity := by
  have hnone : left.get? = Edit.runAll [] tree.get? := hview
  exact isCached_runAll hname hhome hnone (fun _ hmem => absurd hmem List.not_mem_nil)
    fun hne => absurd rfl hne

variable (hstored : '/' ∉ stored.name)

include hstored

theorem isCached_of_done
    (hdone : ((stored.pageEdit tree.home root body).run tree.get?).1 = true) :
    isCached ((writePage stored root body).run tree).2 root stored = true := by
  have heffect := Entity.writePage_effect hstored root body tree
  obtain ⟨hends, habsolute⟩ := Entity.cachePath_ends hstored root
  have hserves := Entity.serves_pageEdit hstored tree.home root body
  by_cases harrives : (stored.pageEdit tree.home root body).Arrives tree.get?
  · have hrun := Edit.run_of_arrives harrives
    rw [hrun] at hdone
    obtain ⟨husable, hplaced⟩ := replaceAct_done hdone
    refine (isCached_iff hstored).mpr ⟨((Path.isUsable_iff hends.leadsTo).mp husable).1, ?_, ?_⟩
    · rw [Reaches, heffect.home, heffect.view]
      intro place hplace
      rw [Edit.run_directory]
      exact harrives.paved_ground (hserves.way_subset hplace)
    · rw [heffect.home, heffect.view, hrun]
      rw [habsolute, Entity.slotOf_above hstored] at hplaced
      exact isFileAt_iff.mpr ⟨_, hplaced⟩
  · rw [Edit.run_of_not_arrives harrives] at hdone
    cases hdone

/-- If a page could not be stored, there is one just if there was one before. -/
theorem isFileAt_of_failed
    (hfailed : ((stored.pageEdit tree.home root body).run tree.get?).1 = false) :
    isFileAt ((stored.pageEdit tree.home root body).run tree.get?).2
        (stored.pagePlace tree.home root) =
      isFileAt tree.get? (stored.pagePlace tree.home root) := by
  obtain ⟨-, habsolute⟩ := Entity.cachePath_ends hstored root
  rw [← Edit.isFileAt_paved (stored.pageEdit tree.home root body) tree.get?
    (stored.pagePlace tree.home root)]
  by_cases harrives : (stored.pageEdit tree.home root body).Arrives tree.get?
  · rw [Edit.run_of_arrives harrives] at hfailed ⊢
    have hkept := replaceAct_failed hfailed
    rw [habsolute, Entity.slotOf_above hstored] at hkept
    exact isFileAt_congr hkept
  · rw [Edit.run_of_not_arrives harrives]

/-- Storing a page lets no page of another name appear below a root that is found. -/
theorem isCached_of_store (hname : '/' ∉ entity.name) (hnames : entity.name ≠ stored.name)
    (hfinds : tree.Finds root)
    (hcached : isCached ((writePage stored root body).run tree).2 root entity = true) :
    isCached tree root entity = true := by
  have heffect := Entity.writePage_effect hstored root body tree
  obtain ⟨hcheck, -, hfile⟩ := (isCached_iff hname).mp hcached
  rw [heffect.home, heffect.view, Edit.isFileAt_run fun hslot => ?_] at hfile
  · exact isCached_of_file hname hfinds hcheck hfile
  · obtain ⟨ending, -, hplace⟩ := (Entity.serves_pageEdit hstored tree.home root body).slots _ hslot
    exact absurd (Entity.name_eq_of_filePlace hplace) hnames

theorem isCached_of_failed (hfinds : tree.Finds root)
    (hfailed : ((stored.pageEdit tree.home root body).run tree.get?).1 = false)
    (hcached : isCached ((writePage stored root body).run tree).2 root stored = true) :
    isCached tree root stored = true := by
  have heffect := Entity.writePage_effect hstored root body tree
  obtain ⟨hcheck, -, hfile⟩ := (isCached_iff hstored).mp hcached
  rw [heffect.home, heffect.view, isFileAt_of_failed hstored hfailed] at hfile
  exact isCached_of_file hstored hfinds hcheck hfile

theorem finds_store (hfinds : tree.Finds root) (body : Text) :
    ((writePage stored root body).run tree).2.Finds root :=
  hfinds.runAll (store_effect hstored root body tree).1 (store_effect hstored root body tree).2

/-- What the fetch stage does at a ref: it finds the page, cannot download it, or stores it. -/
theorem visit_cases (site : Site) (root : Path) (state : FetchState) :
    let next := state.visit site root stored
    (isCached state.tree root stored = true ∧ next.tree = state.tree ∧
        next.report = { state.report with alreadyCached := state.report.alreadyCached + 1 }) ∨
      (isCached state.tree root stored = false ∧ (∃ e, site.fetch stored.url = .error e) ∧
        next.tree = state.tree ∧
        next.report = { state.report with failed := state.report.failed ++ [stored.name] }) ∨
      (isCached state.tree root stored = false ∧ ∃ body, site.fetch stored.url = .ok body ∧
        next.tree = ((writePage stored root body).run state.tree).2 ∧
        next.report =
          if ((stored.pageEdit state.tree.home root body).run state.tree.get?).1 then
            { state.report with fetched := state.report.fetched + 1 }
          else { state.report with failed := state.report.failed ++ [stored.name] }) := by
  intro next
  cases hcached : isCached state.tree root stored with
  | true =>
    have hnext : next = state.found stored := by
      simp only [next, FetchState.visit, hcached, if_true]
    exact .inl ⟨rfl, by rw [hnext]; rfl, by rw [hnext]; rfl⟩
  | false =>
    right
    have hnext : next = state.download site root stored := by
      simp only [next, FetchState.visit, hcached, Bool.false_eq_true, if_false]
    cases hfetch : site.fetch stored.url with
    | error e =>
      left
      rw [FetchStage.download_of_error hfetch] at hnext
      exact ⟨rfl, ⟨e, rfl⟩, by rw [hnext]; rfl, by rw [hnext]; rfl⟩
    | ok body =>
      right
      rw [FetchStage.download_of_ok hfetch] at hnext
      refine ⟨rfl, body, rfl, ?_, ?_⟩
      · rw [hnext, FetchStage.tree_store]
      · rw [hnext, FetchStage.report_store,
          (Entity.writePage_effect hstored root body state.tree).toBool]

end Stored

/-- What each ref adds to those before it holds of all of them in the end. -/
theorem foldl_visit_induction {motive : List Entity → FetchState → Prop} {state : FetchState}
    (site : Site) (root : Path) (refs : List Entity) (hstart : motive [] state)
    (hvisit : ∀ seen ⊆ refs, ∀ entity ∈ refs, ∀ state : FetchState, motive seen state →
      motive (seen ++ [entity]) (state.visit site root entity)) :
    motive refs (refs.foldl (FetchState.visit site root) state) := by
  induction refs using List.reverseRecOn with
  | nil => exact hstart
  | append_singleton refs entity ih =>
    have hinitial : refs ⊆ refs ++ [entity] := List.subset_append_left refs [entity]
    rw [List.foldl_append]
    exact hvisit refs hinitial entity (by simp) _ (ih fun seen hseen other hother =>
      hvisit seen (List.Subset.trans hseen hinitial) other (hinitial hother))

/-- What every ref keeps of a tree is kept by the whole fetch stage. -/
theorem fetchAll_induction {motive : Tree → Prop} {tree : Tree} (site : Site) (root : Path)
    (refs : List Entity) (hstart : motive tree)
    (hvisit : ∀ entity ∈ refs, ∀ state : FetchState, motive state.tree →
      motive (state.visit site root entity).tree) :
    motive (fetchAll site root refs tree).tree :=
  List.foldlRecOn (motive := fun state : FetchState => motive state.tree) refs
    (FetchState.visit site root) hstart fun state h entity hmem => hvisit entity hmem state h

end ClassSkeleton

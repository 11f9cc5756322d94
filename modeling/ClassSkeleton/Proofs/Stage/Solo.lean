import ClassSkeleton.Proofs.Stage.Builds
import ClassSkeleton.Proofs.Stage.Interleaving

/-!
The fetch stage on a tree of its own. It looks for the page of each ref before it stores one, so
no page that was in the cache is written again, and whatever page there is, all of it came from
the site or was there before the stage began.
-/
namespace ClassSkeleton

open ClassSkeleton.Tree Storage

/-- A page is what it was before, or what the site has for an entity of that name. -/
def Content.IsPageOf (content : Content) (site : Site) (refs : List Entity) (before : Option Entry)
    (entity : Entity) : Prop :=
  before = some (.file content) ∨
    ∃ ref ∈ refs, ref.name = entity.name ∧ ∃ body, site.fetch ref.url = .ok body ∧
      content = .text body

def FetchPoint.Holds (site : Site) (refs : List Entity) (cached : Entity → Bool) :
    FetchPoint → Prop
  | .next rest => ∀ entity ∈ rest, entity ∈ refs
  | .absent entity rest => (∀ other ∈ entity :: rest, other ∈ refs) ∧ cached entity = false
  | .downloaded entity body rest =>
    (∀ other ∈ entity :: rest, other ∈ refs) ∧ cached entity = false ∧
      site.fetch entity.url = .ok body
  | .returned => True

/-- The fetch stage, undisturbed, somewhere on its way through the refs. -/
structure FetchStage.Solo (site : Site) (root : Path) (refs : List Entity) (tree : Tree)
    (stage : FetchStage) : Prop where
  outlook : stage.outlook site root = fetchAll site root refs tree
  point : stage.point.Holds site refs (isCached stage.state.tree root)
  home : stage.state.tree.home = tree.home
  pages : ∀ entity ∈ refs, ∀ content,
    stage.state.tree.get? (entity.pagePlace tree.home root) = some (.file content) →
      content.IsPageOf site refs (tree.get? (entity.pagePlace tree.home root)) entity

namespace FetchStage

variable {site : Site} {root outRoot : Path} {refs : List Entity} {tree : Tree} {stage : FetchStage}
  {entity stored : Entity}

theorem tree_store (root : Path) (state : FetchState) (entity : Entity) (body : Text) :
    (store root state entity body).tree = ((writePage entity root body).run state.tree).2 := by
  unfold store
  split
  · rename_i path left hrun
    rw [hrun]
    rfl
  · rename_i e left hrun
    rw [hrun]
    rfl

theorem report_store (root : Path) (state : FetchState) (entity : Entity) (body : Text) :
    (store root state entity body).report =
      if ((writePage entity root body).run state.tree).1.toBool then
        { state.report with fetched := state.report.fetched + 1 }
      else { state.report with failed := state.report.failed ++ [entity.name] } := by
  unfold store
  split
  · rename_i path left hrun
    rw [hrun]
    rfl
  · rename_i e left hrun
    rw [hrun]
    rfl

theorem solo_start (site : Site) (root : Path) (refs : List Entity) (tree : Tree) :
    Solo site root refs tree ⟨.next refs, .start refs.length tree⟩ :=
  ⟨rfl, fun _ hmem => hmem, rfl, fun _ _ _ hentry => Or.inl hentry⟩

namespace Solo

variable (hnames : ∀ entity ∈ refs, '/' ∉ entity.name) (h : Solo site root refs tree stage)

include hnames h

theorem pages_store {body : Text} (hstored : stored ∈ refs)
    (hfetch : site.fetch stored.url = .ok body) (hmem : entity ∈ refs) {content : Content}
    (hentry : (store root stage.state stored body).tree.get? (entity.pagePlace tree.home root) =
      some (.file content)) :
    content.IsPageOf site refs (tree.get? (entity.pagePlace tree.home root)) entity := by
  rw [tree_store] at hentry
  rcases Entity.store_arrived (hnames stored hstored) hentry with hold | ⟨-, hplace, rfl⟩
  · exact h.pages entity hmem content hold
  · rw [h.home] at hplace
    exact Or.inr ⟨stored, hstored, (Entity.name_eq_of_filePlace hplace).symm, body, hfetch, rfl⟩

theorem step : Solo site root refs tree (stage.step site root) := by
  have houtlook := (outlook_step site root stage).trans h.outlook
  have hpoint := h.point
  obtain ⟨point, state⟩ := stage
  cases point with
  | next rest =>
    cases rest with
    | nil => exact ⟨houtlook, trivial, h.home, h.pages⟩
    | cons entity rest =>
      cases hcached : isCached state.tree root entity with
      | true =>
        simp only [FetchStage.step, hcached, if_true] at houtlook ⊢
        exact ⟨houtlook, fun other hother => hpoint other (List.mem_cons_of_mem _ hother), h.home,
          h.pages⟩
      | false =>
        simp only [FetchStage.step, hcached, Bool.false_eq_true, if_false] at houtlook ⊢
        exact ⟨houtlook, ⟨hpoint, hcached⟩, h.home, h.pages⟩
  | absent entity rest =>
    obtain ⟨hrefs, hcached⟩ := hpoint
    cases hfetch : site.fetch entity.url with
    | error e =>
      simp only [FetchStage.step, hfetch] at houtlook ⊢
      exact ⟨houtlook, fun other hother => hrefs other (List.mem_cons_of_mem _ hother), h.home,
        h.pages⟩
    | ok body =>
      simp only [FetchStage.step, hfetch] at houtlook ⊢
      exact ⟨houtlook, ⟨hrefs, hcached, hfetch⟩, h.home, h.pages⟩
  | downloaded entity body rest =>
    obtain ⟨hrefs, hcached, hfetch⟩ := hpoint
    have hentity := hrefs entity List.mem_cons_self
    have hhome : (store root state entity body).tree.home = tree.home := by
      rw [tree_store, (Entity.writePage_effect (hnames entity hentity) root body state.tree).home]
      exact h.home
    have hpages : ∀ other ∈ refs, ∀ content,
        (store root state entity body).tree.get? (other.pagePlace tree.home root) =
          some (.file content) →
        content.IsPageOf site refs (tree.get? (other.pagePlace tree.home root)) other :=
      fun other hmem content => h.pages_store hnames hentity hfetch hmem
    simp only [FetchStage.step] at houtlook ⊢
    generalize store root state entity body = after at houtlook hhome hpages ⊢
    exact ⟨houtlook, fun other hother => hrefs other (List.mem_cons_of_mem _ hother), hhome, hpages⟩
  | returned => exact ⟨houtlook, trivial, h.home, h.pages⟩

omit hnames in
/-- A step leaves the tree as it is or stores a page that was not in the cache. -/
theorem tree_step : (stage.step site root).state.tree = stage.state.tree ∨
    ∃ stored ∈ refs, isCached stage.state.tree root stored = false ∧ ∃ body,
      (stage.step site root).state.tree =
        ((writePage stored root body).run stage.state.tree).2 := by
  have hpoint := h.point
  obtain ⟨point, state⟩ := stage
  cases point with
  | next rest =>
    cases rest with
    | nil => exact Or.inl rfl
    | cons entity rest =>
      refine Or.inl ?_
      simp only [FetchStage.step]
      split <;> rfl
  | absent entity rest =>
    refine Or.inl ?_
    simp only [FetchStage.step]
    split <;> rfl
  | downloaded entity body rest =>
    obtain ⟨hrefs, hcached, -⟩ := hpoint
    exact Or.inr ⟨entity, hrefs entity List.mem_cons_self, hcached, body,
      tree_store root state entity body⟩
  | returned => exact Or.inl rfl

theorem isCached_step (hname : '/' ∉ entity.name)
    (hcached : isCached stage.state.tree root entity = true) :
    isCached (stage.step site root).state.tree root entity = true := by
  rcases h.tree_step with hsame | ⟨stored, hstored, hmissing, body, htree⟩
  · rw [hsame, hcached]
  · rw [htree]
    exact isCached_store (hnames stored hstored) hmissing body hname hcached

theorem readText_step (hname : '/' ∉ entity.name)
    (hcached : isCached stage.state.tree root entity = true) :
    (stage.step site root).state.tree.readText (entity.cachePath root) =
      stage.state.tree.readText (entity.cachePath root) := by
  rcases h.tree_step with hsame | ⟨stored, hstored, hmissing, body, htree⟩
  · rw [hsame]
  · rw [htree]
    exact readText_store (hnames stored hstored) hmissing body hname hcached

theorem verdict_step (hapart : root.Apart tree.home outRoot) (hname : '/' ∉ entity.name)
    (hcached : isCached stage.state.tree root entity = true) :
    entity.verdict root outRoot (stage.step site root).state.tree =
      entity.verdict root outRoot stage.state.tree := by
  rcases h.tree_step with hsame | ⟨stored, hstored, hmissing, body, htree⟩
  · rw [hsame]
  · rw [htree]
    refine verdict_store (hnames stored hstored) hmissing body ?_ hname hcached
    rwa [h.home]

end Solo

end FetchStage

end ClassSkeleton

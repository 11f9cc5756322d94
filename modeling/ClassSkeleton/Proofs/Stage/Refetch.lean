import ClassSkeleton.Proofs.Stage.Stored

/-!
The fetch stage once more. Behind a fetch stage every page is in the cache or cannot be had: the
site does not have it, or storing it fails and changes nothing. Neither pages that are stored later
nor skeletons change that, so a second stage finds the pages of the first and fails on its failed
refs.
-/
namespace ClassSkeleton

open ClassSkeleton.Tree Storage

/-- The page of the entity cannot be brought: the site does not have it, or storing it fails and
changes nothing. -/
def Stuck (site : Site) (root : Path) (tree : Tree) (entity : Entity) : Prop :=
  ∀ body, site.fetch entity.url = .ok body →
    (entity.pageEdit tree.home root body).run tree.get? = (false, tree.get?)

namespace Stuck

variable {site : Site} {root : Path} {tree left : Tree} {entity stored : Entity}

theorem of_same (h : Stuck site root tree entity) (hhome : left.home = tree.home)
    (hview : left.get? = tree.get?) : Stuck site root left entity := fun body hfetch => by
  rw [hhome, hview]
  exact h body hfetch

theorem of_failed (hstored : '/' ∉ stored.name) {body : Text}
    (hfetch : site.fetch stored.url = .ok body)
    (hfailed : ((stored.pageEdit tree.home root body).run tree.get?).1 = false) :
    Stuck site root ((writePage stored root body).run tree).2 stored := by
  intro other hother
  obtain rfl : body = other := Except.ok.inj (hfetch.symm.trans hother)
  have heffect := Entity.writePage_effect hstored root body tree
  rw [heffect.home, heffect.view, Edit.run_again (firm_pageEdit _ _ _ _), ← hfailed]

theorem store (h : Stuck site root tree entity) (hname : '/' ∉ entity.name)
    (hstored : '/' ∉ stored.name) {body : Text} (hfetch : site.fetch stored.url = .ok body)
    (hurl : entity.name = stored.name → entity.url = stored.url) :
    Stuck site root ((writePage stored root body).run tree).2 entity := by
  have heffect := Entity.writePage_effect hstored root body tree
  by_cases hnames : entity.name = stored.name
  · have hstuck := h body (by rw [hurl hnames, hfetch])
    rw [pageEdit_congr hnames] at hstuck
    exact h.of_same heffect.home (by rw [heffect.view, hstuck])
  · intro other hother
    have hserves := Entity.serves_pageEdit hname tree.home root other
    have hothers := Entity.serves_pageEdit hstored tree.home root body
    have hthere := hothers.spares_same hserves tree.get?
    have hback := hserves.spares_same hothers tree.get?
    rw [heffect.home, heffect.view]
    refine Prod.ext ?_ ?_
    · rw [Edit.run_fst hthere hback, h other hother]
    · rw [Edit.run_comm hthere hback (hserves.disjoint_of_names hothers hnames), h other hother]

end Stuck

/-- The page of the entity is not in the cache and cannot be brought there. -/
structure Lacks (site : Site) (root : Path) (tree : Tree) (entity : Entity) : Prop where
  missing : isCached tree root entity = false
  stuck : ∀ body, site.fetch entity.url = .ok body →
    (entity.pageEdit tree.home root body).run tree.get? = (false, tree.get?)

namespace Lacks

variable {site : Site} {root outRoot : Path} {tree left : Tree} {entity stored : Entity}

theorem of_same (h : Lacks site root tree entity) (hname : '/' ∉ entity.name)
    (hhome : left.home = tree.home) (hview : left.get? = tree.get?) :
    Lacks site root left entity where
  missing := (isCached_of_same hname hhome hview).trans h.missing
  stuck := Stuck.of_same h.stuck hhome hview

theorem of_failed (hstored : '/' ∉ stored.name) (hfinds : tree.Finds root)
    (hmissing : isCached tree root stored = false) {body : Text}
    (hfetch : site.fetch stored.url = .ok body)
    (hfailed : ((stored.pageEdit tree.home root body).run tree.get?).1 = false) :
    Lacks site root ((writePage stored root body).run tree).2 stored where
  missing := by
    rw [← Bool.not_eq_true]
    intro hcached
    rw [isCached_of_failed hstored hfinds hfailed hcached] at hmissing
    cases hmissing
  stuck := Stuck.of_failed hstored hfetch hfailed

theorem store (h : Lacks site root tree entity) (hname : '/' ∉ entity.name)
    (hstored : '/' ∉ stored.name) (hfinds : tree.Finds root) {body : Text}
    (hfetch : site.fetch stored.url = .ok body)
    (hurl : entity.name = stored.name → entity.url = stored.url) :
    Lacks site root ((writePage stored root body).run tree).2 entity where
  missing := by
    have heffect := Entity.writePage_effect hstored root body tree
    by_cases hnames : entity.name = stored.name
    · have hstuck := h.stuck body (by rw [hurl hnames, hfetch])
      rw [pageEdit_congr hnames] at hstuck
      exact (isCached_of_same hname heffect.home (by rw [heffect.view, hstuck])).trans h.missing
    · rw [← Bool.not_eq_true]
      intro hcached
      have hbefore := isCached_of_store hstored hname hnames hfinds hcached
      rw [h.missing] at hbefore
      cases hbefore
  stuck := Stuck.store h.stuck hname hstored hfetch hurl

/-- What is lacking is still lacking when skeletons have been built. -/
theorem build (h : Lacks site root tree entity) (hname : '/' ∉ entity.name)
    (hapart : root.Apart tree.home outRoot) {entities : List Entity}
    (hbuilds : Builds root outRoot entities tree left) : Lacks site root left entity where
  missing := (hbuilds.isCached_eq hname).trans h.missing
  stuck body hfetch := by
    have hpage := Entity.serves_pageEdit hname tree.home root body
    have hopen : (entities.map fun entity => entity.buildEdit root outRoot tree) ≠ [] →
        tree.Reaches root := fun hedits => hbuilds.reaches (by simpa using hedits)
    have hspares : ∀ edit ∈ entities.map fun entity => entity.buildEdit root outRoot tree,
        ∀ view, Opens view (root.rootStart tree.home) root.names →
          Edit.Spares edit (entity.pageEdit tree.home root body) view ∧
            Edit.Spares (entity.pageEdit tree.home root body) edit view := by
      intro edit hedit view hview
      obtain ⟨other, hbuild⟩ := hbuilds.serves hedit
      exact ⟨hbuild.spares_open hpage hview, hpage.spares_apart hbuild hview hapart⟩
    have hdisjoint : ∀ edit ∈ entities.map fun entity => entity.buildEdit root outRoot tree,
        ∀ slot ∈ (entity.pageEdit tree.home root body).slots, slot ∉ edit.slots := by
      intro edit hedit
      obtain ⟨other, hbuild⟩ := hbuilds.serves hedit
      exact hpage.disjoint_of_endings hbuild (by decide)
    rw [hbuilds.home, hbuilds.view]
    refine Prod.ext ?_ ?_
    · rw [Edit.run_runAll_fst hopen hspares, h.stuck body hfetch]
    · rw [Edit.run_runAll_snd hopen hspares hdisjoint, h.stuck body hfetch]

end Lacks

/-- The fetch stage when it has been at some refs. -/
structure Gathered (site : Site) (root : Path) (seen : List Entity) (state : FetchState) :
    Prop where
  finds : state.tree.Finds root
  settled : ∀ entity ∈ seen,
    isCached state.tree root entity = true ∨ Lacks site root state.tree entity
  found : state.report.fetched + state.report.alreadyCached =
    (seen.filter fun entity => isCached state.tree root entity).length
  failed : state.report.failed =
    (seen.filter fun entity => !isCached state.tree root entity).map (·.name)

namespace Gathered

variable {site : Site} {root : Path} {seen : List Entity} {state next : FetchState}
  {entity stored : Entity}

theorem extend (h : Gathered site root seen state) (hfinds : next.tree.Finds root)
    (hcached : ∀ entity ∈ seen, isCached state.tree root entity = true →
      isCached next.tree root entity = true)
    (hlacks : ∀ entity ∈ seen, Lacks site root state.tree entity →
      Lacks site root next.tree entity)
    (hnew : (isCached next.tree root stored = true ∧
        next.report.fetched + next.report.alreadyCached =
          state.report.fetched + state.report.alreadyCached + 1 ∧
        next.report.failed = state.report.failed) ∨
      (Lacks site root next.tree stored ∧
        next.report.fetched + next.report.alreadyCached =
          state.report.fetched + state.report.alreadyCached ∧
        next.report.failed = state.report.failed ++ [stored.name])) :
    Gathered site root (seen ++ [stored]) next := by
  have hsame : ∀ entity ∈ seen,
      isCached next.tree root entity = isCached state.tree root entity := by
    intro entity hmem
    rcases h.settled entity hmem with hold | hold
    · rw [hold, hcached entity hmem hold]
    · rw [hold.missing, (hlacks entity hmem hold).missing]
  have hfilter := List.filter_congr hsame
  have hfilterNot : (seen.filter fun entity => !isCached next.tree root entity) =
      seen.filter fun entity => !isCached state.tree root entity :=
    List.filter_congr fun entity hmem => by rw [hsame entity hmem]
  have hsettled : ∀ entity ∈ seen,
      isCached next.tree root entity = true ∨ Lacks site root next.tree entity :=
    fun entity hmem => (h.settled entity hmem).imp (hcached entity hmem) (hlacks entity hmem)
  refine ⟨hfinds, ?settled, ?found, ?failed⟩
  case settled =>
    intro entity hmem
    rcases List.mem_append.mp hmem with hmem | hmem
    · exact hsettled entity hmem
    · rw [List.mem_singleton.mp hmem]
      exact hnew.imp (·.1) (·.1)
  case found =>
    rw [List.filter_append, List.length_append, hfilter, ← h.found]
    rcases hnew with ⟨hin, hcount, -⟩ | ⟨hout, hcount, -⟩
    · rw [hcount, List.filter_cons, hin]
      rfl
    · rw [hcount, List.filter_cons, hout.missing]
      rfl
  case failed =>
    rw [List.filter_append, List.map_append, hfilterNot, ← h.failed]
    rcases hnew with ⟨hin, -, hnames⟩ | ⟨hout, -, hnames⟩
    · rw [hnames, List.filter_cons, hin]
      exact (List.append_nil _).symm
    · rw [hnames, List.filter_cons, hout.missing]
      rfl

theorem visit (h : Gathered site root seen state) (hseen : ∀ entity ∈ seen, '/' ∉ entity.name)
    (hstored : '/' ∉ stored.name)
    (hurls : ∀ entity ∈ seen, entity.name = stored.name → entity.url = stored.url) :
    Gathered site root (seen ++ [stored]) (state.visit site root stored) := by
  rcases visit_cases hstored site root state with ⟨hin, htree, hreport⟩ |
    ⟨hout, ⟨e, hfetch⟩, htree, hreport⟩ | ⟨hout, body, hfetch, htree, hreport⟩
  · refine h.extend (by rw [htree]; exact h.finds) (fun _ _ hold => by rw [htree, hold])
      (fun _ _ hold => by rw [htree]; exact hold) (.inl ⟨by rw [htree, hin], ?_, ?_⟩)
    · rw [hreport]
      rfl
    · rw [hreport]
  · refine h.extend (by rw [htree]; exact h.finds) (fun _ _ hold => by rw [htree, hold])
      (fun _ _ hold => by rw [htree]; exact hold) (.inr ⟨?_, ?_, ?_⟩)
    · rw [htree]
      refine ⟨hout, fun body hbody => ?_⟩
      rw [hfetch] at hbody
      cases hbody
    · rw [hreport]
    · rw [hreport]
  · refine h.extend (by rw [htree]; exact finds_store hstored h.finds body) ?_ ?_ ?_
    · intro entity hmem hold
      rw [htree]
      exact isCached_store hstored hout body (hseen entity hmem) hold
    · intro entity hmem hold
      rw [htree]
      exact hold.store (hseen entity hmem) hstored h.finds hfetch (hurls entity hmem)
    · cases hdone : ((stored.pageEdit state.tree.home root body).run state.tree.get?).1 with
      | true =>
        rw [hdone, if_pos rfl] at hreport
        refine .inl ⟨by rw [htree]; exact isCached_of_done hstored hdone, ?_, ?_⟩
        · rw [hreport]
          exact Nat.succ_add _ _
        · rw [hreport]
      | false =>
        rw [hdone, if_neg Bool.false_ne_true] at hreport
        refine .inr ⟨by rw [htree]; exact Lacks.of_failed hstored h.finds hout hfetch hdone, ?_, ?_⟩
        · rw [hreport]
        · rw [hreport]

end Gathered

section Again

variable {site : Site} {root : Path} {refs : List Entity} {tree left : Tree}

/-- What the fetch stage leaves behind. -/
theorem gathered_fetchAll (hnames : ∀ entity ∈ refs, '/' ∉ entity.name)
    (hurls : ∀ entity ∈ refs, ∀ other ∈ refs, entity.name = other.name → entity.url = other.url)
    (hfinds : tree.Finds root) : Gathered site root refs (fetchAll site root refs tree) := by
  have hstart : Gathered site root [] (FetchState.start refs.length tree) :=
    ⟨hfinds, fun _ hmem => absurd hmem List.not_mem_nil, rfl, rfl⟩
  have hall : Gathered site root refs (refs.foldl (FetchState.visit site root)
      (FetchState.start refs.length tree)) :=
    foldl_visit_induction site root refs hstart fun seen hseen entity hmem state h =>
      h.visit (fun other ho => hnames other (hseen ho)) (hnames entity hmem) fun other ho =>
        hurls other (hseen ho) entity hmem
  exact ⟨hall.finds, hall.settled, hall.found, hall.failed⟩

/-- A fetch stage that finds every page or lacks it. -/
structure Resumed (left : Tree) (found : Nat) (failed : List Text) (state : FetchState) : Prop where
  home : state.tree.home = left.home
  view : state.tree.get? = left.get?
  report : state.report = ⟨0, found, failed⟩

theorem Resumed.visit {found : Nat} {failed : List Text} {state : FetchState} {entity : Entity}
    (h : Resumed left found failed state) (hname : '/' ∉ entity.name)
    (hsettled : isCached left root entity = true ∨ Lacks site root left entity) :
    (isCached left root entity = true ∧
        Resumed left (found + 1) failed (state.visit site root entity)) ∨
      (isCached left root entity = false ∧
        Resumed left found (failed ++ [entity.name]) (state.visit site root entity)) := by
  have hcached : isCached state.tree root entity = isCached left root entity :=
    isCached_of_same hname h.home h.view
  rcases visit_cases hname site root state with ⟨hin, htree, hreport⟩ |
    ⟨hout, -, htree, hreport⟩ | ⟨hout, body, hfetch, htree, hreport⟩
  · exact .inl ⟨hcached ▸ hin, by rw [htree, h.home], by rw [htree, h.view],
      by rw [hreport, h.report]⟩
  · exact .inr ⟨hcached ▸ hout, by rw [htree, h.home], by rw [htree, h.view],
      by rw [hreport, h.report]⟩
  · have hlacks :=
      (hsettled.resolve_left (by rw [← hcached, hout]; simp)).of_same hname h.home h.view
    have heffect := Entity.writePage_effect hname root body state.tree
    have hstuck := hlacks.stuck body hfetch
    refine .inr ⟨hcached ▸ hout, ?_, ?_, ?_⟩
    · rw [htree, heffect.home, h.home]
    · rw [htree, heffect.view, hstuck, h.view]
    · rw [hreport, hstuck, h.report]
      rfl

/-- A fetch stage that finds every page or lacks it brings nothing. -/
theorem resumed_fetchAll (hnames : ∀ entity ∈ refs, '/' ∉ entity.name)
    (hsettled : ∀ entity ∈ refs, isCached left root entity = true ∨ Lacks site root left entity) :
    Resumed left (refs.filter fun entity => isCached left root entity).length
      ((refs.filter fun entity => !isCached left root entity).map (·.name))
      (fetchAll site root refs left) := by
  have hstart : Resumed left 0 [] (FetchState.start refs.length left) := ⟨rfl, rfl, rfl⟩
  have hall := foldl_visit_induction (motive := fun seen state =>
      Resumed left (seen.filter fun entity => isCached left root entity).length
        ((seen.filter fun entity => !isCached left root entity).map (·.name)) state)
    site root refs hstart fun seen _ entity hmem state h => by
      rcases h.visit (hnames entity hmem) (hsettled entity hmem) with ⟨hin, hnext⟩ | ⟨hout, hnext⟩
      · simpa [hin] using hnext
      · simpa [hout] using hnext
  exact ⟨hall.home, hall.view, hall.report⟩

end Again

end ClassSkeleton

import ClassSkeleton.Proofs.Stage.Settling
import ClassSkeleton.Proofs.Stage.Stored

/-!
The parse stage once more. What has been built is at rest: each skeleton could have been the last
one, so building it again finds its own work and ends with the verdict it had. A second stage over
the same pages comes to the same reports and leaves the tree as it is.
-/
namespace ClassSkeleton

open ClassSkeleton.Tree Storage

namespace Builds

variable {cacheRoot outRoot : Path} {entities others : List Entity} {tree left base right : Tree}
  {entity : Entity}

theorem firm_buildEdit (cacheRoot outRoot : Path) (tree : Tree) (entity : Entity) :
    (entity.buildEdit cacheRoot outRoot tree).act.Firm := by
  rw [Entity.buildEdit]
  cases entity.draft (tree.readText (entity.cachePath cacheRoot)) with
  | error verdict => exact Act.firm_skip
  | ok skeleton => exact firm_pair _ _ _ _ _ _ _

variable (outRoot) in
theorem buildEdit_of_same (hname : '/' ∉ entity.name)
    (hcached : isCached tree cacheRoot entity = true) (hhome : left.home = tree.home)
    (hview : left.get? = tree.get?) :
    left.readText (entity.cachePath cacheRoot) = tree.readText (entity.cachePath cacheRoot) ∧
      entity.buildEdit cacheRoot outRoot left = entity.buildEdit cacheRoot outRoot tree := by
  have hread := readText_congr hname hhome hcached
    ((isCached_of_same hname hhome hview).trans hcached) (congrFun hview _)
  exact ⟨hread, by rw [Entity.buildEdit, Entity.buildEdit, hread, hhome]⟩

variable (h : Builds cacheRoot outRoot entities tree left)

include h

theorem buildEdit_eq (hname : '/' ∉ entity.name)
    (hcached : isCached tree cacheRoot entity = true) :
    entity.buildEdit cacheRoot outRoot left = entity.buildEdit cacheRoot outRoot tree := by
  rw [Entity.buildEdit, Entity.buildEdit, h.readText_eq hname hcached, h.home]

theorem verdict_eq (hname : '/' ∉ entity.name)
    (hcached : isCached tree cacheRoot entity = true) :
    entity.verdict cacheRoot outRoot left = entity.verdict cacheRoot outRoot tree := by
  rw [← (h.build hname hcached).2, (Entity.buildCached_effect hname cacheRoot outRoot left).2.2]

/-- What has been built is at rest, for it could have been built last. -/
theorem rests (hmem : entity ∈ entities) :
    (entity.buildEdit cacheRoot outRoot left).Rests left.get? := by
  have hlast : entities.Perm (entities.erase entity ++ [entity]) :=
    (List.perm_cons_erase hmem).trans (List.perm_append_singleton _ _).symm
  rw [h.buildEdit_eq (h.named entity hmem) (h.cached entity hmem), h.view_of_perm hlast,
    List.map_append, List.map_singleton, Edit.runAll_concat]
  exact Edit.rests_run (firm_buildEdit _ _ _ _) _

/-- Building entities again on the tree they have left, in any order, changes nothing. -/
theorem again (hagain : Builds cacheRoot outRoot others base right)
    (hothers : ∀ entity ∈ others, entity ∈ entities) (hhome : base.home = left.home)
    (hview : base.get? = left.get?) : right.home = left.home ∧ right.get? = left.get? := by
  refine ⟨hagain.home.trans hhome, ?_⟩
  rw [hagain.view, hview]
  refine Edit.runAll_of_rests fun edit hedit => ?_
  obtain ⟨entity, hmem, rfl⟩ := List.mem_map.mp hedit
  have hname := hagain.named entity hmem
  have hcached : isCached left cacheRoot entity = true :=
    (isCached_of_same hname hhome hview).symm.trans (hagain.cached entity hmem)
  rw [(buildEdit_of_same outRoot hname hcached hhome hview).2]
  exact h.rests (hothers entity hmem)

theorem verdict_again (hname : '/' ∉ entity.name)
    (hcached : isCached tree cacheRoot entity = true) (hhome : base.home = left.home)
    (hview : base.get? = left.get?) :
    entity.verdict cacheRoot outRoot base = entity.verdict cacheRoot outRoot tree := by
  have hleft : isCached left cacheRoot entity = true := (h.isCached_eq hname).trans hcached
  obtain ⟨hread, hedit⟩ := buildEdit_of_same outRoot hname hleft hhome hview
  rw [← h.verdict_eq hname hcached, Entity.verdict, Entity.verdict, hedit, hread, hview]

end Builds

/-- A parse stage has worked through refs, beginning with one tree and leaving another. -/
structure Parsed (cacheRoot outRoot : Path) (refs : List Entity) (tree left : Tree)
    (report : ParseReport) : Prop where
  built : ∃ entities, Builds cacheRoot outRoot entities tree left ∧
    entities.Perm (refs.filter fun entity => isCached tree cacheRoot entity) ∧
    ∀ verdict, report.under verdict = (entities.filter fun entity =>
      entity.verdict cacheRoot outRoot tree == verdict).map (·.name)
  pending : report.pending.Perm
    ((refs.filter fun entity => !isCached tree cacheRoot entity).map (·.name))

/-- Reports that differ in nothing but order, and in the turns that were taken. -/
structure ParseReport.Matches (report other : ParseReport) : Prop where
  written : report.written.Perm other.written
  notImplemented : report.notImplemented.Perm other.notImplemented
  failed : report.failed.Perm other.failed
  pending : report.pending.Perm other.pending

namespace Parsed

variable {cacheRoot outRoot : Path} {refs others : List Entity} {tree left base right : Tree}
  {report other : ParseReport}

theorem of_settled {site : Site} {fetched : FetchState} {joint : Joint}
    (h : Joint.Settled site cacheRoot outRoot refs tree fetched joint report) :
    Parsed cacheRoot outRoot refs fetched.tree joint.tree report :=
  ⟨⟨joint.entities, h.builds, h.translated, h.under⟩, h.pending⟩

theorem isCached_eq (h : Parsed cacheRoot outRoot refs tree left report) {entity : Entity}
    (hname : '/' ∉ entity.name) :
    isCached left cacheRoot entity = isCached tree cacheRoot entity := by
  obtain ⟨entities, hbuilds, -⟩ := h.built
  exact hbuilds.isCached_eq hname

theorem home (h : Parsed cacheRoot outRoot refs tree left report) : left.home = tree.home := by
  obtain ⟨entities, hbuilds, -⟩ := h.built
  exact hbuilds.home

/-- A parse stage on what another one has left changes nothing and reports the same. -/
theorem again (h : Parsed cacheRoot outRoot refs tree left report)
    (hagain : Parsed cacheRoot outRoot others base right other)
    (hnames : ∀ entity ∈ refs, '/' ∉ entity.name) (hperm : others.Perm refs)
    (hhome : base.home = left.home) (hview : base.get? = left.get?) :
    right.home = left.home ∧ right.get? = left.get? ∧ other.Matches report := by
  have hcached : ∀ entity ∈ refs,
      isCached base cacheRoot entity = isCached tree cacheRoot entity := fun entity hmem =>
    (isCached_of_same (hnames entity hmem) hhome hview).trans (h.isCached_eq (hnames entity hmem))
  have hsame : ∀ test : Bool → Bool,
      (others.filter fun entity => test (isCached base cacheRoot entity)).Perm
        (refs.filter fun entity => test (isCached tree cacheRoot entity)) := by
    intro test
    have hfilter : (refs.filter fun entity => test (isCached base cacheRoot entity)) =
        refs.filter fun entity => test (isCached tree cacheRoot entity) :=
      List.filter_congr fun entity hmem => by rw [hcached entity hmem]
    rw [← hfilter]
    exact hperm.filter _
  obtain ⟨entities, hbuilds, htranslated, hunder⟩ := h.built
  obtain ⟨rebuilt, hrebuilds, hretranslated, hreunder⟩ := hagain.built
  have hrebuilt : rebuilt.Perm entities := (hretranslated.trans (hsame id)).trans htranslated.symm
  obtain ⟨hrhome, hrview⟩ :=
    hbuilds.again hrebuilds (fun entity hmem => hrebuilt.subset hmem) hhome hview
  have hverdicts : ∀ verdict, (other.under verdict).Perm (report.under verdict) := by
    intro verdict
    have hsameVerdict : ∀ entity ∈ rebuilt, (entity.verdict cacheRoot outRoot base == verdict) =
        (entity.verdict cacheRoot outRoot tree == verdict) := fun entity hmem => by
      have hentity := hrebuilt.subset hmem
      rw [hbuilds.verdict_again (hbuilds.named entity hentity) (hbuilds.cached entity hentity)
        hhome hview]
    rw [hunder, hreunder, List.filter_congr hsameVerdict]
    exact (hrebuilt.filter _).map _
  exact ⟨hrhome, hrview, hverdicts .written, hverdicts .notImplemented, hverdicts .failed,
    (hagain.pending.trans ((hsame not).map _)).trans h.pending.symm⟩

end Parsed

end ClassSkeleton

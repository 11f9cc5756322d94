import ClassSkeleton.Proofs.Stage.Rotation
import ClassSkeleton.Proofs.Stage.Solo

/-!
How the two stages settle. Beside them a fetch stage works alone on a tree of its own, step by
step with the one that is disturbed; the tree that both stages share is always the tree of the
lone stage with the skeletons built on it. So the order in which the stages take their steps
leaves no trace at the end, and that one stage follows the other is one of the orders.
-/
namespace ClassSkeleton

open ClassSkeleton.Tree Storage

def FetchStage.prospect (cacheRoot outRoot : Path) (stage : FetchStage) : Prospect where
  cached := isCached stage.state.tree cacheRoot
  verdict := Entity.verdict cacheRoot outRoot stage.state.tree
  ended := stage.isEnded

namespace Joint

def entities (joint : Joint) : List Entity := joint.translations.map (·.entity)

/-- The stages are in step with a fetch stage that works alone. -/
structure Follows (site : Site) (cacheRoot outRoot : Path) (refs : List Entity) (tree : Tree)
    (alone : FetchStage) (joint : Joint) : Prop where
  solo : alone.Solo site cacheRoot refs tree
  point : joint.fetch.point = alone.point
  report : joint.fetch.state.report = alone.state.report
  builds : Builds cacheRoot outRoot joint.entities alone.state.tree joint.tree
  pages : ∀ translation ∈ joint.translations, translation.page =
    alone.state.tree.readText (translation.entity.cachePath cacheRoot)
  parse : (alone.prospect cacheRoot outRoot).HoldsAt refs joint.entities joint.parse

variable {site : Site} {cacheRoot outRoot : Path} {refs : List Entity} {tree : Tree}
  {alone : FetchStage} {joint : Joint}

theorem follows_start (site : Site) (cacheRoot outRoot : Path) (refs : List Entity) (tree : Tree) :
    Follows site cacheRoot outRoot refs tree ⟨.next refs, .start refs.length tree⟩
      (start refs tree) :=
  ⟨FetchStage.solo_start site cacheRoot refs tree, rfl, rfl, .nil cacheRoot outRoot tree,
    by simp [start], rfl, rfl⟩

namespace Follows

variable (hnames : ∀ entity ∈ refs, '/' ∉ entity.name)
  (h : Follows site cacheRoot outRoot refs tree alone joint)

include h

theorem isEnded : joint.fetch.isEnded = alone.isEnded := by
  rw [FetchStage.isEnded, h.point]
  rfl

theorem goTo {point : ParsePoint}
    (hpoint : (alone.prospect cacheRoot outRoot).HoldsAt refs joint.entities point) :
    Follows site cacheRoot outRoot refs tree alone { joint with parse := point } :=
  ⟨h.solo, h.point, h.report, h.builds, h.pages, hpoint⟩

include hnames

theorem isCached_eq {entity : Entity} (hmem : entity ∈ refs) :
    isCached joint.tree cacheRoot entity =
      isCached alone.state.tree cacheRoot entity :=
  h.builds.isCached_eq (hnames entity hmem)

theorem build {state : ParseState} {entity : Entity} {rest : List Entity} {finished : Bool}
    (hparse : joint.parse = .ready state entity rest finished) :
    Follows site cacheRoot outRoot refs tree alone (joint.parseStep cacheRoot outRoot) := by
  have hready := h.parse
  rw [hparse] at hready
  have hname := hnames entity (hready.1.mem List.mem_cons_self)
  have hcached : isCached alone.state.tree cacheRoot entity = true := hready.2.1
  obtain ⟨hbuilds, hverdict⟩ := h.builds.build hname hcached
  have hentities : (joint.parseStep cacheRoot outRoot).entities = joint.entities ++ [entity] := by
    simp [parseStep, hparse, entities]
  refine ⟨h.solo, ?_, ?_, ?_, ?_, ?_⟩
  · simp only [parseStep, hparse]
    exact h.point
  · simp only [parseStep, hparse]
    exact h.report
  · rw [hentities]
    simp only [parseStep, hparse]
    exact hbuilds
  · simp only [parseStep, hparse]
    intro translation hmem
    rcases List.mem_append.mp hmem with hmem | hmem
    · exact h.pages translation hmem
    · rw [List.mem_singleton.mp hmem]
      exact h.builds.readText_eq hname hcached
  · rw [hentities]
    simp only [parseStep, hparse]
    exact hready.build hverdict _

theorem parseStep : Follows site cacheRoot outRoot refs tree alone
    (joint.parseStep cacheRoot outRoot) := by
  have hholds := h.parse
  cases hparse : joint.parse with
  | begin queue =>
    rw [hparse] at hholds
    obtain ⟨rfl, hentities⟩ := hholds
    simp only [Joint.parseStep, hparse]
    refine h.goTo ?_
    rw [hentities, h.isEnded]
    exact Prospect.holdsAt_start queue
  | turn state =>
    rw [hparse] at hholds
    cases hqueue : state.queue with
    | nil =>
      simp only [Joint.parseStep, hparse, hqueue]
      exact h.goTo (Prospect.HoldsAt.close hholds.1 (by simp [hqueue]))
    | cons entity rest =>
      have hmem : entity ∈ refs := hholds.1.mem (by simp [hqueue])
      cases hcached : isCached alone.state.tree cacheRoot entity with
      | true =>
        simp only [Joint.parseStep, hparse, hqueue, h.isCached_eq hnames hmem, hcached, if_true]
        exact h.goTo (hholds.find hqueue hcached)
      | false =>
        simp only [Joint.parseStep, hparse, hqueue, h.isCached_eq hnames hmem, hcached,
          Bool.false_eq_true, if_false]
        exact h.goTo (hholds.miss hqueue hcached)
  | missing state entity rest =>
    rw [hparse] at hholds
    cases hgivesUp : state.givesUp rest with
    | true =>
      simp only [Joint.parseStep, hparse, hgivesUp, if_true]
      exact h.goTo (hholds.giveUp hgivesUp)
    | false =>
      simp only [Joint.parseStep, hparse, hgivesUp, Bool.false_eq_true, if_false, h.isEnded]
      exact h.goTo hholds.postpone
  | found state entity rest =>
    rw [hparse] at hholds
    simp only [Joint.parseStep, hparse, h.isEnded]
    exact h.goTo hholds.load
  | ready state entity rest finished => exact h.build hnames hparse
  | returned state =>
    simp only [Joint.parseStep, hparse]
    exact h

/-- Both fetch stages take their next step alike. -/
theorem lockstep (hapart : cacheRoot.Apart tree.home outRoot) :
    (joint.fetch.step site cacheRoot).point = (alone.step site cacheRoot).point ∧
      (joint.fetch.step site cacheRoot).state.report =
        (alone.step site cacheRoot).state.report ∧
      Builds cacheRoot outRoot joint.entities (alone.step site cacheRoot).state.tree
        (joint.fetch.step site cacheRoot).state.tree := by
  have hrefs := h.solo.point
  have hcachedBy : ∀ entity ∈ refs, isCached joint.tree cacheRoot entity =
      isCached alone.state.tree cacheRoot entity := fun entity hmem => h.isCached_eq hnames hmem
  have hreport := h.report
  have hbuilds := h.builds
  have hhome := h.solo.home
  have hpoint := h.point
  obtain ⟨⟨point, state⟩, parse, translations⟩ := joint
  obtain ⟨alonePoint, aloneState⟩ := alone
  obtain rfl : point = alonePoint := hpoint
  simp only [Joint.tree] at hcachedBy hbuilds
  simp only at hrefs hcachedBy hreport hbuilds hhome
  cases point with
  | next rest =>
    cases rest with
    | nil => exact ⟨rfl, hreport, hbuilds⟩
    | cons entity rest =>
      have hsame := hcachedBy entity (hrefs entity List.mem_cons_self)
      cases hcached : isCached aloneState.tree cacheRoot entity with
      | true =>
        simp only [FetchStage.step, hsame, hcached, if_true]
        exact ⟨trivial, by simp only [FetchState.found, hreport], hbuilds⟩
      | false =>
        simp only [FetchStage.step, hsame, hcached, Bool.false_eq_true, if_false]
        exact ⟨trivial, hreport, hbuilds⟩
  | absent entity rest =>
    cases hfetch : site.fetch entity.url with
    | error e =>
      simp only [FetchStage.step, hfetch]
      exact ⟨trivial, by simp only [FetchState.failed, hreport], hbuilds⟩
    | ok body =>
      simp only [FetchStage.step, hfetch]
      exact ⟨trivial, hreport, hbuilds⟩
  | downloaded entity body rest =>
    obtain ⟨hmem, hmissing, -⟩ := hrefs
    obtain ⟨hstored, hdone⟩ := hbuilds.store (hnames entity (hmem entity List.mem_cons_self))
      hmissing body (by rwa [hhome])
    simp only [FetchStage.step, FetchStage.report_store, FetchStage.tree_store]
    exact ⟨trivial, by rw [hdone, hreport], hstored⟩
  | returned => exact ⟨rfl, hreport, hbuilds⟩

theorem fetchStep (hapart : cacheRoot.Apart tree.home outRoot) :
    Follows site cacheRoot outRoot refs tree (alone.step site cacheRoot)
      { joint with fetch := joint.fetch.step site cacheRoot } := by
  obtain ⟨hpoint, hreport, hbuilds⟩ := h.lockstep hnames hapart
  have hentities : ∀ entity ∈ joint.entities, '/' ∉ entity.name ∧
      isCached alone.state.tree cacheRoot entity = true := fun entity hmem =>
    ⟨h.builds.named entity hmem, h.builds.cached entity hmem⟩
  refine ⟨h.solo.step hnames, hpoint, hreport, hbuilds, fun translation hmem => ?_, ?_⟩
  · obtain ⟨hname, hcached⟩ := hentities translation.entity (List.mem_map_of_mem hmem)
    rw [h.pages translation hmem, h.solo.readText_step hnames hname hcached]
  · cases hended : alone.isEnded with
    | false =>
      refine h.parse.mono hended (fun entity hmem hcached => ?_) fun entity hmem => ?_
      · exact h.solo.isCached_step hnames (hnames entity hmem) hcached
      · obtain ⟨hname, hcached⟩ := hentities entity hmem
        exact h.solo.verdict_step hnames hapart hname hcached
    | true =>
      have hstep : alone.step site cacheRoot = alone := by
        obtain ⟨point, state⟩ := alone
        cases point <;> first | rfl | simp [FetchStage.isEnded] at hended
      rw [hstep]
      exact h.parse

end Follows

/-- The stages stay in step with a fetch stage that works alone, whatever the order. -/
theorem follows_run (site : Site) (hnames : ∀ entity ∈ refs, '/' ∉ entity.name)
    (hapart : cacheRoot.Apart tree.home outRoot) (schedule : List StageName) :
    ∃ alone, Follows site cacheRoot outRoot refs tree alone
      (run site cacheRoot outRoot schedule (start refs tree)) := by
  refine run_induction (fun joint => ∃ alone, Follows site cacheRoot outRoot refs tree alone joint)
    ⟨_, follows_start site cacheRoot outRoot refs tree⟩ ?_ schedule
  rintro joint stage ⟨alone, h⟩
  cases stage with
  | fetch => exact ⟨alone.step site cacheRoot, h.fetchStep hnames hapart⟩
  | parse => exact ⟨alone, h.parseStep hnames⟩

section Settled

/-! What both stages come to. -/

/-- All that can be told of both stages when they have returned, by the tree that the fetch stage
leaves if it is alone. -/
structure Settled (site : Site) (cacheRoot outRoot : Path) (refs : List Entity) (tree : Tree)
    (fetched : FetchState) (joint : Joint) (report : ParseReport) : Prop where
  fetch : joint.fetch.state.report = fetched.report
  builds : Builds cacheRoot outRoot joint.entities fetched.tree joint.tree
  translated : joint.entities.Perm
    (refs.filter fun entity => isCached fetched.tree cacheRoot entity)
  pending : report.pending.Perm
    ((refs.filter fun entity => !isCached fetched.tree cacheRoot entity).map (·.name))
  under : ∀ verdict, report.under verdict = (joint.entities.filter fun entity =>
    entity.verdict cacheRoot outRoot fetched.tree == verdict).map (·.name)
  pages : ∀ translation ∈ joint.translations, translation.page =
    fetched.tree.readText (translation.entity.cachePath cacheRoot)
  origin : ∀ entity ∈ refs, ∀ content,
    fetched.tree.get? (entity.pagePlace tree.home cacheRoot) = some (.file content) →
      content.IsPageOf site refs (tree.get? (entity.pagePlace tree.home cacheRoot)) entity
  home : fetched.tree.home = tree.home

theorem report?_eq_some {report : ParseReport} (h : joint.report? = some report) :
    joint.fetch.point = .returned ∧ ∃ state, joint.parse = .returned state ∧
      state.report = report := by
  unfold report? at h
  split at h
  · rename_i state hfetch hparse
    exact ⟨hfetch, state, hparse, Option.some.inj h⟩
  · simp at h

theorem Follows.settled (h : Follows site cacheRoot outRoot refs tree alone joint)
    {report : ParseReport} (hreport : joint.report? = some report) :
    Settled site cacheRoot outRoot refs tree (fetchAll site cacheRoot refs tree) joint report := by
  obtain ⟨hended, state, hparse, rfl⟩ := report?_eq_some hreport
  have hpoint : alone.point = .returned := h.point ▸ hended
  have hfetched : fetchAll site cacheRoot refs tree = alone.state := by
    rw [← h.solo.outlook, FetchStage.outlook, hpoint]
  have hholds := h.parse
  rw [hparse] at hholds
  obtain ⟨htranslated, hpending⟩ := hholds.settled h.builds.cached
  rw [hfetched]
  exact ⟨h.report, h.builds, htranslated, hpending, hholds.1.under, h.pages, h.solo.pages,
    h.solo.home⟩

variable {fetched : FetchState} {report : ParseReport}
  (h : Settled site cacheRoot outRoot refs tree fetched joint report)

include h

theorem Settled.isCached_eq (hnames : ∀ entity ∈ refs, '/' ∉ entity.name) {entity : Entity}
    (hmem : entity ∈ refs) :
    isCached joint.tree cacheRoot entity =
      isCached fetched.tree cacheRoot entity :=
  h.builds.isCached_eq (hnames entity hmem)

/-- What has been read as a page is the page in the cache at the end, and all of one. -/
theorem Settled.complete {translation : Translation} (hmem : translation ∈ joint.translations) :
    translation.page = joint.tree.readText (translation.entity.cachePath cacheRoot) ∧
      ∃ content : Content, translation.page = content.read ∧
        content.IsPageOf site refs
          (tree.get? (translation.entity.pagePlace tree.home cacheRoot)) translation.entity := by
  have hentity : translation.entity ∈ joint.entities := List.mem_map_of_mem hmem
  have hname := h.builds.named _ hentity
  have hcached := h.builds.cached _ hentity
  obtain ⟨-, -, hfile⟩ := (isCached_iff hname).mp hcached
  obtain ⟨content, hcontent⟩ := isFileAt_iff.mp hfile
  refine ⟨(h.pages translation hmem).trans (h.builds.readText_eq hname hcached).symm,
    content, ?_, ?_⟩
  · rw [h.pages translation hmem, readText_of_cached hname hcached hcontent]
  · rw [h.home] at hcontent
    exact h.origin _ (List.mem_filter.mp (h.translated.subset hentity)).1 content hcontent

/-- Two ways to settle differ in nothing but order. -/
theorem Settled.unique {other : Joint} {otherReport : ParseReport}
    (hother : Settled site cacheRoot outRoot refs tree fetched other otherReport) :
    (∀ verdict, (report.under verdict).Perm (otherReport.under verdict)) ∧
      joint.tree.home = other.tree.home ∧ joint.tree.get? = other.tree.get? := by
  have hperm := h.translated.trans hother.translated.symm
  refine ⟨fun verdict => ?_, h.builds.perm hother.builds hperm⟩
  rw [h.under verdict, hother.under verdict]
  exact (hperm.filter _).map _

end Settled

/-- Whatever the order in which the stages take their steps: when both have returned, the refs
without a page are pending and every other one has been translated once, from the whole of its
page; and reports and tree are those of a parse stage that follows the fetch stage. -/
theorem run_settles (site : Site) (cacheRoot outRoot : Path) (refs : List Entity) (tree : Tree)
    (schedule : List StageName) (report : ParseReport)
    (hnames : ∀ entity ∈ refs, '/' ∉ entity.name) (hapart : cacheRoot.Apart tree.home outRoot)
    (hreport : (run site cacheRoot outRoot schedule (start refs tree)).report? = some report) :
    let last := run site cacheRoot outRoot schedule (start refs tree)
    let fetched := fetchAll site cacheRoot refs tree
    let parsed := parseAll cacheRoot outRoot afterFetch refs fetched.tree
    report.pending.Perm
        ((refs.filter fun entity => !isCached last.tree cacheRoot entity).map (·.name)) ∧
      last.entities.Perm (refs.filter fun entity => isCached last.tree cacheRoot entity) ∧
      (∀ translation ∈ last.translations,
        translation.page = last.tree.readText (translation.entity.cachePath cacheRoot) ∧
          ∃ content : Content, translation.page = content.read ∧
            content.IsPageOf site refs
              (tree.get? (translation.entity.pagePlace tree.home cacheRoot))
              translation.entity) ∧
      parsed.ended = true ∧
      report.written.Perm parsed.state.report.written ∧
      report.notImplemented.Perm parsed.state.report.notImplemented ∧
      report.failed.Perm parsed.state.report.failed ∧
      last.fetch.state.report = fetched.report ∧
      last.tree.home = parsed.tree.home ∧ last.tree.get? = parsed.tree.get? := by
  intro last fetched parsed
  obtain ⟨alone, hfollows⟩ := follows_run site hnames hapart schedule
  have hsettled := hfollows.settled hreport
  obtain ⟨order, translations, horder⟩ := run_sequential site cacheRoot outRoot refs tree
  obtain ⟨other, hsequential⟩ := follows_run site hnames hapart order
  rw [horder] at hsequential
  have hother := hsequential.settled rfl
  obtain ⟨hunder, hhome, hview⟩ := hsettled.unique hother
  have hcached : ∀ entity ∈ refs, isCached last.tree cacheRoot entity =
      isCached fetched.tree cacheRoot entity := fun entity hmem => hsettled.isCached_eq hnames hmem
  refine ⟨?_, ?_, fun translation hmem => hsettled.complete hmem,
    parseAll_ended cacheRoot outRoot refs fetched.tree, hunder .written, hunder .notImplemented,
    hunder .failed, hsettled.fetch, hhome, hview⟩
  · rw [List.filter_congr fun entity hmem => by rw [hcached entity hmem]]
    exact hsettled.pending
  · rw [List.filter_congr hcached]
    exact hsettled.translated

def sampleSite : Site := Site.ofPages
  [("a".toList, "<h2 title=\"Class A\"><pre>class A</pre>".toList),
    ("b".toList, "<h2 title=\"Enum B\">".toList)]

def sampleRefs : List Entity :=
  [⟨"p.A".toList, "a".toList, by decide⟩, ⟨"p.B".toList, "b".toList, by decide⟩,
    ⟨"p.C".toList, "c".toList, by decide⟩]

/-- The parse stage misses the first page, finds it behind the others, and at the end has to turn
twice before it gives up on the last one. -/
def sampleSchedule : List StageName :=
  [.parse, .parse, .fetch, .fetch, .fetch, .parse, .fetch, .parse, .parse, .parse, .fetch, .parse,
    .fetch, .parse, .fetch, .parse, .parse, .parse, .fetch, .fetch, .parse, .parse, .parse, .parse,
    .parse, .parse, .parse]

theorem run_settles_sample :
    ∃ report : ParseReport,
      (run sampleSite ⟨"cache".toList⟩ ⟨"out".toList⟩ sampleSchedule
          (start sampleRefs (Tree.bare []))).report? = some report ∧
        report.pending = ["p.C".toList] ∧
        report.written.Perm
          (parseAll ⟨"cache".toList⟩ ⟨"out".toList⟩ afterFetch sampleRefs (fetchAll sampleSite
            ⟨"cache".toList⟩ sampleRefs (Tree.bare [])).tree).state.report.written ∧
        (run sampleSite ⟨"cache".toList⟩ ⟨"out".toList⟩ sampleSchedule
            (start sampleRefs (Tree.bare []))).tree.get? =
          (parseAll ⟨"cache".toList⟩ ⟨"out".toList⟩ afterFetch sampleRefs
            (fetchAll sampleSite ⟨"cache".toList⟩ sampleRefs (Tree.bare [])).tree).tree.get? := by
  have hreport : (run sampleSite ⟨"cache".toList⟩ ⟨"out".toList⟩ sampleSchedule
      (start sampleRefs (Tree.bare []))).report? =
        some ⟨["p.A".toList], ["p.B".toList], [], ["p.C".toList], 6⟩ := by decide +kernel
  have hapart : (Path.mk "cache".toList).Apart [] ⟨"out".toList⟩ :=
    Path.apart_of_not_inside (by decide) (by decide)
  obtain ⟨-, -, -, -, hwritten, -, -, -, -, hview⟩ :=
    run_settles sampleSite ⟨"cache".toList⟩ ⟨"out".toList⟩ sampleRefs (Tree.bare []) sampleSchedule
      _ (by decide) hapart hreport
  exact ⟨_, hreport, rfl, hwritten, hview⟩

section Crossed

/-! A way to the skeletons that goes through the cache and out again. Neither root lies inside the
other, but on that way a directory is made where the first page was to go. -/

def crossedOutRoot : Path := ⟨"c/A.html/../../out".toList⟩

def crossedRefs : List Entity :=
  [⟨"A".toList, "a".toList, by decide⟩, ⟨"B".toList, "b".toList, by decide⟩]

def crossedSite : Site := Site.ofPages
  [("a".toList, "<h2 title=\"Class A\"><pre>class A</pre>".toList)]

def crossedTree : Tree :=
  [(["c".toList], Entry.directory),
    (["c".toList, "B.html".toList],
      .file (.text "<h2 title=\"Class B\"><pre>class B</pre>".toList))].foldl
      (fun tree item => tree.put item.1 item.2) (Tree.bare [])

/-- The skeleton of the second page is built before the first page is stored. -/
def crossedSchedule : List StageName :=
  List.replicate 6 .parse ++ List.replicate 5 .fetch ++ List.replicate 4 .parse

/-- It is not enough that neither root lies inside the other: if the skeletons are reached through
the cache, the order in which the stages take their steps decides what is written. -/
theorem not_run_settles_crossed :
    ¬ ∀ (site : Site) (cacheRoot outRoot : Path) (refs : List Entity) (tree : Tree)
        (schedule : List StageName) (report : ParseReport),
      (∀ entity ∈ refs, '/' ∉ entity.name) → Path.Unnested tree.home cacheRoot outRoot →
      (run site cacheRoot outRoot schedule (start refs tree)).report? = some report →
      report.written.Perm (parseAll cacheRoot outRoot afterFetch refs
        (fetchAll site cacheRoot refs tree).tree).state.report.written := by
  intro hall
  have hreport : (run crossedSite ⟨"c".toList⟩ crossedOutRoot crossedSchedule
      (start crossedRefs crossedTree)).report? =
        some ⟨["B".toList], [], [], ["A".toList], 4⟩ := by decide +kernel
  have hsequential : (parseAll ⟨"c".toList⟩ crossedOutRoot afterFetch crossedRefs
      (fetchAll crossedSite ⟨"c".toList⟩ crossedRefs crossedTree).tree).state.report =
        ⟨[], [], ["A".toList, "B".toList], [], 2⟩ := by decide +kernel
  have hwritten := hall _ _ _ _ _ _ _ (by decide) (by decide) hreport
  rw [hsequential] at hwritten
  exact absurd hwritten (by decide)

end Crossed

end Joint

end ClassSkeleton

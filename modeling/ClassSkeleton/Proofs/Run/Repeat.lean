import ClassSkeleton.Proofs.Catalog.Offline
import ClassSkeleton.Proofs.Stage.Alone
import ClassSkeleton.Proofs.Stage.Refetch
import ClassSkeleton.Run

/-!
Running again. A second run on the tree of the first downloads nothing, fails on the same refs and
leaves the tree as it is, whatever the order in which the stages of either run took their steps.
Only a cache root that does not exist yet must not be given by a path with two dots: the first run
would make the way to it, and the second could find pages there that the first had not. Nor must
the way to the skeletons lead through the cache, where the fetch stage may open or block it.
-/
namespace ClassSkeleton

open ClassSkeleton.Tree Storage

/-- Entries of one name are documented at one address. -/
def Catalog.IsCoherent (entities : List Entity) : Prop :=
  ∀ entity ∈ entities, ∀ other ∈ entities, entity.name = other.name → entity.url = other.url

instance (entities : List Entity) : Decidable (Catalog.IsCoherent entities) :=
  inferInstanceAs (Decidable (∀ entity ∈ entities, _))

namespace Joint

variable {site : Site} {cacheRoot outRoot : Path} {refs : List Entity} {tree : Tree}
  {joint : Joint} {report : ParseReport}

theorem settled_of_run {schedule : List StageName} (hnames : ∀ entity ∈ refs, '/' ∉ entity.name)
    (hapart : cacheRoot.Apart tree.home outRoot)
    (ran : run site cacheRoot outRoot schedule (start refs tree) = joint)
    (returned : joint.report? = some report) :
    Settled site cacheRoot outRoot refs tree (fetchAll site cacheRoot refs tree) joint report := by
  obtain ⟨alone, hfollows⟩ := follows_run site hnames hapart schedule
  rw [ran] at hfollows
  exact hfollows.settled returned

/-- Behind both stages another fetch stage finds the pages that there are, and fails on the same
refs. -/
theorem Settled.refetch
    (h : Settled site cacheRoot outRoot refs tree (fetchAll site cacheRoot refs tree) joint report)
    (hnames : ∀ entity ∈ refs, '/' ∉ entity.name) (hcoherent : Catalog.IsCoherent refs)
    (hfinds : tree.Finds cacheRoot) (hapart : cacheRoot.Apart tree.home outRoot) :
    Resumed joint.tree
      (joint.fetch.state.report.fetched + joint.fetch.state.report.alreadyCached)
      joint.fetch.state.report.failed (fetchAll site cacheRoot refs joint.tree) := by
  have hgathered : Gathered site cacheRoot refs (fetchAll site cacheRoot refs tree) :=
    gathered_fetchAll hnames hcoherent hfinds
  have hcached : ∀ entity ∈ refs, isCached joint.tree cacheRoot entity =
      isCached (fetchAll site cacheRoot refs tree).tree cacheRoot entity :=
    fun entity hmem => h.isCached_eq hnames hmem
  have hresumed : Resumed joint.tree _ _ (fetchAll site cacheRoot refs joint.tree) :=
    resumed_fetchAll hnames fun entity hmem => (hgathered.settled entity hmem).imp
      (fun hold => (hcached entity hmem).trans hold)
      (fun hlacks => hlacks.build (hnames entity hmem) (h.home.symm ▸ hapart) h.builds)
  rwa [List.filter_congr hcached,
    List.filter_congr fun entity hmem => congrArg not (hcached entity hmem),
    ← hgathered.found, ← hgathered.failed, ← h.fetch] at hresumed

end Joint

namespace Run

/-- A run has come to an end, whatever the order in which its stages took their steps. -/
inductive Ends (site : Site) (options : Options) (tree : Tree) : Summary → Tree → Prop
  | cachedOnly {refs : List Entity} {stage : ParseEnd} (mode : options.parseOnly = true)
      (listed : (catalog site options tree).outcome = .ok refs)
      (parsed : parseAll options.cacheRoot options.outRoot Joint.afterFetch refs tree = stage) :
      Ends site options tree ⟨⟨0, 0, []⟩, stage.state.report⟩ stage.tree
  | both {refs : List Entity} {last : Joint} {report : ParseReport} (schedule : List StageName)
      (mode : options.parseOnly = false)
      (listed : (catalog site options tree).outcome = .ok refs)
      (ran : Joint.run site options.cacheRoot options.outRoot schedule
        (Joint.start refs tree) = last)
      (returned : last.report? = some report) :
      Ends site options tree ⟨last.fetch.state.report, report⟩ last.tree

variable {site : Site} {options : Options} {tree left last : Tree} {summary again : Summary}

theorem exists_ends {refs : List Entity}
    (listed : (catalog site options tree).outcome = .ok refs) :
    ∃ summary left, Ends site options tree summary left := by
  cases mode : options.parseOnly with
  | true => exact ⟨_, _, .cachedOnly mode listed rfl⟩
  | false =>
    obtain ⟨order, translations, horder⟩ :=
      Joint.run_sequential site options.cacheRoot options.outRoot refs tree
    exact ⟨_, _, .both order mode listed horder rfl⟩

/-- The run that is written down is one of those. -/
theorem ends_perform {thread : Text}
    (h : (perform site options thread tree).outcome = .ok summary) :
    Ends site options tree summary (perform site options thread tree).tree := by
  unfold perform at h ⊢
  cases listed : (catalog site options tree).outcome with
  | error cause => simp [listed] at h
  | ok refs =>
    simp only [listed] at h ⊢
    cases mode : options.parseOnly with
    | true =>
      simp only [stages, mode, if_true] at h ⊢
      rw [← Except.ok.inj h]
      exact .cachedOnly mode listed rfl
    | false =>
      simp only [stages, mode, Bool.false_eq_true, if_false] at h ⊢
      rw [← Except.ok.inj h]
      obtain ⟨order, translations, horder⟩ :=
        Joint.run_sequential site options.cacheRoot options.outRoot refs tree
      exact .both order mode listed horder rfl

theorem twice_cachedOnly {refs : List Entity} {stage : ParseEnd}
    (mode : options.parseOnly = true) (listed : (catalog site options tree).outcome = .ok refs)
    (parsed : parseAll options.cacheRoot options.outRoot Joint.afterFetch refs tree = stage) :
    ∃ others, (catalog site options stage.tree).outcome = .ok others ∧
      ∀ again,
        parseAll options.cacheRoot options.outRoot Joint.afterFetch others stage.tree = again →
        again.tree.home = stage.tree.home ∧ again.tree.get? = stage.tree.get? ∧
          again.state.report.Matches stage.state.report := by
  simp only [catalog, mode, if_true] at listed ⊢
  have hnames := Catalog.slashless_of_ofCache listed
  have hparsed := Parsed.parseAll options.cacheRoot options.outRoot hnames tree
  rw [parsed] at hparsed
  obtain ⟨entities, hbuilds, -⟩ := hparsed.built
  have hopen : stage.tree.Reaches options.cacheRoot := by
    obtain ⟨-, hopen, -⟩ := Catalog.ofCache_eq_ok.mp listed
    rw [Reaches, hbuilds.home, hbuilds.view]
    exact Edit.opens_runAll _ hopen
  obtain ⟨others, hlisted, hperm⟩ := Catalog.ofCache_again listed hbuilds.home hopen
    fun names hpage => Catalog.isFileAt_builds hbuilds hpage
  refine ⟨others, hlisted, fun again reparsed => ?_⟩
  have hothers : ∀ entity ∈ others, '/' ∉ entity.name := fun entity hmem =>
    hnames entity (hperm.subset hmem)
  have hreparsed := Parsed.parseAll options.cacheRoot options.outRoot hothers stage.tree
  rw [reparsed] at hreparsed
  exact hparsed.again hreparsed hnames hperm rfl rfl

theorem twice_both {refs : List Entity} {joint rejoint : Joint} {report other : ParseReport}
    {schedule reschedule : List StageName}
    (hapart : options.cacheRoot.Apart tree.home options.outRoot)
    (hnames : ∀ entity ∈ refs, '/' ∉ entity.name) (hcoherent : Catalog.IsCoherent refs)
    (hfinds : tree.Finds options.cacheRoot)
    (ran : Joint.run site options.cacheRoot options.outRoot schedule
      (Joint.start refs tree) = joint)
    (returned : joint.report? = some report)
    (reran : Joint.run site options.cacheRoot options.outRoot reschedule
      (Joint.start refs joint.tree) = rejoint)
    (rereturned : rejoint.report? = some other) :
    rejoint.tree.home = joint.tree.home ∧ rejoint.tree.get? = joint.tree.get? ∧
      other.Matches report ∧
      rejoint.fetch.state.report = ⟨0, joint.fetch.state.report.fetched +
        joint.fetch.state.report.alreadyCached, joint.fetch.state.report.failed⟩ := by
  have hsettled := Joint.settled_of_run hnames hapart ran returned
  have hhome : joint.tree.home = tree.home := hsettled.builds.home.trans hsettled.home
  have hresettled := Joint.settled_of_run hnames (hhome ▸ hapart) reran rereturned
  have hresumed := hsettled.refetch hnames hcoherent hfinds hapart
  obtain ⟨hrhome, hrview, hmatches⟩ := (Parsed.of_settled hsettled).again
    (Parsed.of_settled hresettled) hnames (List.Perm.refl refs) hresumed.home hresumed.view
  exact ⟨hrhome, hrview, hmatches, hresettled.fetch.trans hresumed.report⟩

/-- A run comes to an end again on the tree that it left, and every such end leaves that tree as
it is, reports the same in some order, and downloads nothing. -/
theorem ends_twice
    (hapart : options.parseOnly = false → options.cacheRoot.Apart tree.home options.outRoot)
    (hcoherent : ∀ html, site.fetch options.indexUrl = .ok html →
      Catalog.IsCoherent (Catalog.parseIndex html options.baseUrl))
    (hfinds : options.parseOnly = false → tree.Finds options.cacheRoot)
    (h : Ends site options tree summary left) :
    (∃ again last, Ends site options left again last) ∧
      ∀ again last, Ends site options left again last →
        last.home = left.home ∧ last.get? = left.get? ∧ again.parse.Matches summary.parse ∧
          (options.parseOnly = false → again.fetch =
            ⟨0, summary.fetch.fetched + summary.fetch.alreadyCached, summary.fetch.failed⟩) := by
  cases h with
  | cachedOnly mode listed parsed =>
    obtain ⟨others, hlisted, hstage⟩ := twice_cachedOnly mode listed parsed
    refine ⟨exists_ends hlisted, fun again last hagain => ?_⟩
    cases hagain with
    | cachedOnly remode relisted reparsed =>
      obtain rfl := Except.ok.inj (hlisted.symm.trans relisted)
      obtain ⟨hhome, hview, hmatches⟩ := hstage _ reparsed
      exact ⟨hhome, hview, hmatches, fun hboth => absurd (mode.symm.trans hboth) (by decide)⟩
    | both reschedule remode => exact absurd (mode.symm.trans remode) (by decide)
  | @both refs joint report schedule mode listed ran returned =>
    have hload : (Catalog.load site options).outcome = .ok refs := by
      simpa only [catalog, mode, Bool.false_eq_true, if_false] using listed
    have hagainListed : (catalog site options joint.tree).outcome = .ok refs := by
      simpa only [catalog, mode, Bool.false_eq_true, if_false] using hload
    have hnames := Catalog.slashless_of_load hload
    have hrefs : Catalog.IsCoherent refs := by
      obtain ⟨html, hindex, rfl⟩ := Catalog.load_eq_ok hload
      intro entity hmem other hother
      exact hcoherent html hindex entity (List.mem_filter.mp hmem).1 other
        (List.mem_filter.mp hother).1
    refine ⟨exists_ends hagainListed, fun again last hagain => ?_⟩
    cases hagain with
    | cachedOnly remode => exact absurd (mode.symm.trans remode) (by decide)
    | both reschedule remode relisted reran rereturned =>
      obtain rfl := Except.ok.inj (hagainListed.symm.trans relisted)
      obtain ⟨hhome, hview, hmatches, hfetch⟩ :=
        twice_both (hapart mode) hnames hrefs (hfinds mode) ran returned reran rereturned
      exact ⟨hhome, hview, hmatches, fun _ => hfetch⟩

theorem isCoherent_of_index {index : Text} (hindex : site.fetch options.indexUrl = .ok index)
    (h : Catalog.IsCoherent (Catalog.parseIndex index options.baseUrl)) :
    ∀ html, site.fetch options.indexUrl = .ok html →
      Catalog.IsCoherent (Catalog.parseIndex html options.baseUrl) := by
  intro html hhtml
  obtain rfl := Except.ok.inj (hindex.symm.trans hhtml)
  exact h

def sampleIndex : Text :=
  "<li><a href=\"p/A.html\">\n<li><a href=\"p/B.html\">\n<li><a href=\"p/C.html\">".toList

def sampleSite : Site := Site.ofPages
  [("d/i".toList, sampleIndex),
    ("d/p/A.html".toList, "<h2 title=\"Class A\"><pre>class A</pre>".toList),
    ("d/p/B.html".toList, "<h2 title=\"Enum B\">".toList)]

def sampleOptions : Options := ⟨"d/".toList, "i".toList, [], false, ⟨"out".toList⟩, ⟨"out".toList⟩⟩

theorem ends_twice_sample :
    let first := perform sampleSite sampleOptions [] (Tree.bare [])
    first.outcome = .ok ⟨⟨2, 0, ["p.C".toList]⟩,
        ⟨["p.A".toList], ["p.B".toList], [], ["p.C".toList], 3⟩⟩ ∧
      (∃ again last, Ends sampleSite sampleOptions first.tree again last) ∧
      ∀ again last, Ends sampleSite sampleOptions first.tree again last →
        last.get? = first.tree.get? ∧ again.parse.written.Perm ["p.A".toList] ∧
          again.fetch = ⟨0, 2, ["p.C".toList]⟩ := by
  intro first
  have houtcome : first.outcome = .ok ⟨⟨2, 0, ["p.C".toList]⟩,
      ⟨["p.A".toList], ["p.B".toList], [], ["p.C".toList], 3⟩⟩ := by decide +kernel
  have hindex : sampleSite.fetch sampleOptions.indexUrl = .ok sampleIndex := by decide +kernel
  have hcoherent : Catalog.IsCoherent
      (Catalog.parseIndex sampleIndex sampleOptions.baseUrl) := by decide +kernel
  obtain ⟨hexists, hall⟩ := ends_twice (fun _ => .inl rfl)
    (isCoherent_of_index hindex hcoherent) (fun _ => .inl (by decide)) (ends_perform houtcome)
  refine ⟨houtcome, hexists, fun again last hagain => ?_⟩
  obtain ⟨-, hview, hmatches, hfetch⟩ := hall again last hagain
  exact ⟨hview, hmatches.written, hfetch rfl⟩

section Uncovered

/-! A cache root given by way of a directory that does not exist yet. The page is below its place,
but is found by the second run only. The first fails to store it, for a directory stands where it
would be staged. -/

def uncoveredPage : Text := "<h2 title=\"Class T\"><pre>class T</pre>".toList

def uncoveredTree : Tree :=
  [(["c".toList], Entry.directory), (["c".toList, "p".toList], .directory),
    (["c".toList, "p".toList, "T.html".toList], .file (.text uncoveredPage)),
    (["c".toList, "p".toList, "T.html.part".toList], .directory)].foldl
      (fun tree item => tree.put item.1 item.2) (Tree.bare [])

def uncoveredIndex : Text := "<li><a href=\"p/T.html\">".toList

def uncoveredSite : Site := Site.ofPages
  [("http://d/i".toList, uncoveredIndex), ("http://d/p/T.html".toList, uncoveredPage)]

def uncoveredOptions : Options :=
  ⟨"http://d/".toList, "i".toList, [], false, ⟨"x/../c".toList⟩, ⟨"x/../c".toList⟩⟩

/-- Without a condition on the cache root, a second run may find what the first has not. -/
theorem not_ends_twice_uncovered :
    ¬ ∀ (site : Site) (options : Options) (tree left last : Tree) (summary again : Summary),
      (options.outRoot = options.cacheRoot ∨
        (¬ IsInside (options.outRoot.rootPlace tree.home) (options.cacheRoot.rootPlace tree.home) ∧
          ¬ IsInside (options.cacheRoot.rootPlace tree.home)
            (options.outRoot.rootPlace tree.home))) →
      (∀ html, site.fetch options.indexUrl = .ok html →
        Catalog.IsCoherent (Catalog.parseIndex html options.baseUrl)) →
      options.parseOnly = false →
      Ends site options tree summary left → Ends site options left again last →
      again.fetch =
        ⟨0, summary.fetch.fetched + summary.fetch.alreadyCached, summary.fetch.failed⟩ := by
  intro hall
  have hfirst : (perform uncoveredSite uncoveredOptions [] uncoveredTree).outcome =
      .ok ⟨⟨0, 0, ["p.T".toList]⟩, ⟨["p.T".toList], [], [], [], 1⟩⟩ := by decide +kernel
  have hsecond : (perform uncoveredSite uncoveredOptions []
      (perform uncoveredSite uncoveredOptions [] uncoveredTree).tree).outcome =
        .ok ⟨⟨0, 1, []⟩, ⟨["p.T".toList], [], [], [], 1⟩⟩ := by decide +kernel
  have hindex : uncoveredSite.fetch uncoveredOptions.indexUrl = .ok uncoveredIndex := by
    decide +kernel
  have hcoherent : Catalog.IsCoherent
      (Catalog.parseIndex uncoveredIndex uncoveredOptions.baseUrl) := by decide +kernel
  have hfetch := hall _ _ _ _ _ _ _ (.inl rfl)
    (isCoherent_of_index hindex hcoherent) rfl (ends_perform hfirst) (ends_perform hsecond)
  exact absurd hfetch (by decide)

end Uncovered

section Crossed

/-! A way to the skeletons that goes through the cache and out again. At first a stale sibling of
the first page stands on it, so the skeleton of the second page cannot be written; the fetch stage
takes the sibling away. -/

def crossedOutRoot : Path := ⟨"c/A.html.part/../../out".toList⟩

def crossedTree : Tree :=
  [(["c".toList], Entry.directory), (["c".toList, "A.html.part".toList], .file (.text [])),
    (["c".toList, "B.html".toList],
      .file (.text "<h2 title=\"Class B\"><pre>class B</pre>".toList))].foldl
      (fun tree item => tree.put item.1 item.2) (Tree.bare [])

def crossedIndex : Text := "<li><a href=\"A.html\">\n<li><a href=\"B.html\">".toList

def crossedSite : Site := Site.ofPages
  [("http://d/i".toList, crossedIndex),
    ("http://d/A.html".toList, "<h2 title=\"Class A\"><pre>class A</pre>".toList)]

def crossedOptions : Options :=
  ⟨"http://d/".toList, "i".toList, [], false, ⟨"c".toList⟩, crossedOutRoot⟩

def crossedRefs : List Entity := Catalog.parseIndex crossedIndex crossedOptions.baseUrl

/-- The parse stage works on the second page before the fetch stage begins. -/
def crossedRun : Joint :=
  Joint.run crossedSite ⟨"c".toList⟩ crossedOutRoot
    (List.replicate 6 .parse ++ List.replicate 5 .fetch ++ List.replicate 4 .parse)
    (Joint.start crossedRefs crossedTree)

/-- Without a condition on the way to the skeletons, a second run may write what the first could
not. -/
theorem not_ends_twice_crossed :
    ¬ ∀ (site : Site) (options : Options) (tree left last : Tree) (summary again : Summary),
      options.cacheRoot.Unnested tree.home options.outRoot →
      (∀ html, site.fetch options.indexUrl = .ok html →
        Catalog.IsCoherent (Catalog.parseIndex html options.baseUrl)) →
      options.parseOnly = false → tree.Finds options.cacheRoot →
      Ends site options tree summary left → Ends site options left again last →
      again.parse.failed.Perm summary.parse.failed := by
  intro hall
  have hlisted : (catalog crossedSite crossedOptions crossedTree).outcome = .ok crossedRefs := by
    decide +kernel
  have hreturned : crossedRun.report? =
      some ⟨["A".toList], [], ["B".toList], [], 3⟩ := by decide +kernel
  have hsecond : (perform crossedSite crossedOptions [] crossedRun.tree).outcome =
      .ok ⟨⟨0, 2, []⟩, ⟨["A".toList, "B".toList], [], [], [], 2⟩⟩ := by decide +kernel
  have hindex : crossedSite.fetch crossedOptions.indexUrl = .ok crossedIndex := by decide +kernel
  have hcoherent : Catalog.IsCoherent crossedRefs := by decide +kernel
  have hfailed := hall _ _ _ _ _ _ _ (by decide)
    (isCoherent_of_index hindex hcoherent) rfl (.inl (by decide))
    (.both _ rfl hlisted rfl hreturned) (ends_perform hsecond)
  exact absurd hfailed (by decide)

end Crossed

end Run

end ClassSkeleton

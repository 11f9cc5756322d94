import ClassSkeleton.Proofs.Stage.Refetch
import ClassSkeleton.Proofs.Storage.Replacing
import Mathlib.Data.List.Forall2

/-!
What a fetch stage tells and what it leaves. Each ref is told of once, in order, and counted. A
file that is there at the end was there before or is the page of a ref that did not fail, and no
file is gone but siblings of pages that were tried.
-/
namespace ClassSkeleton

open ClassSkeleton.Tree Storage

section Told

/-! What a fetch stage tells. -/

def Entity.IsToldBy (entity : Entity) (event : Event) : Prop :=
  event = .done entity.name ∨ ∃ reason, event = .failed entity.name reason

/-- The stage has told of each ref that it has been at, and counted it. -/
structure FetchState.Tells (count : Nat) (seen : List Entity) (state : FetchState) : Prop where
  told : ∃ events, state.events = .begin count :: events ∧
    List.Forall₂ Entity.IsToldBy seen events
  done : (Tally.ofEvents state.events).done.length =
    state.report.fetched + state.report.alreadyCached
  failed : (Tally.ofEvents state.events).failed = state.report.failed
  total : state.report.fetched + state.report.alreadyCached + state.report.failed.length =
    seen.length

variable {site : Site} {root : Path} {count : Nat} {seen : List Entity} {state : FetchState}

theorem visit_told (site : Site) (root : Path) (state : FetchState) (entity : Entity) :
    let next := state.visit site root entity
    (next.events = state.events ++ [.done entity.name] ∧
        next.report.fetched + next.report.alreadyCached =
          state.report.fetched + state.report.alreadyCached + 1 ∧
        next.report.failed = state.report.failed) ∨
      ∃ reason, next.events = state.events ++ [.failed entity.name reason] ∧
        next.report.fetched + next.report.alreadyCached =
          state.report.fetched + state.report.alreadyCached ∧
        next.report.failed = state.report.failed ++ [entity.name] := by
  intro next
  have hnext : next = state.visit site root entity := rfl
  unfold FetchState.visit at hnext
  split at hnext
  · exact .inl ⟨by rw [hnext]; rfl, by rw [hnext]; rfl, by rw [hnext]; rfl⟩
  unfold FetchState.download at hnext
  split at hnext
  · exact .inr ⟨_, by rw [hnext]; rfl, by rw [hnext]; rfl, by rw [hnext]; rfl⟩
  split at hnext
  · refine .inl ⟨by rw [hnext]; rfl, ?_, by rw [hnext]; rfl⟩
    rw [hnext]
    exact Nat.succ_add _ _
  · exact .inr ⟨_, by rw [hnext]; rfl, by rw [hnext]; rfl, by rw [hnext]; rfl⟩

namespace FetchState.Tells

theorem visit (h : state.Tells count seen) (entity : Entity) :
    (state.visit site root entity).Tells count (seen ++ [entity]) := by
  obtain ⟨⟨events, hevents, htold⟩, hdone, hfailed, htotal⟩ := h
  have htally : ∀ event, Tally.ofEvents (state.events ++ [event]) =
      (Tally.ofEvents state.events).add event := fun event => by
    rw [Tally.ofEvents, List.foldl_append]
    rfl
  rcases visit_told site root state entity with
    ⟨hnext, hcount, hsame⟩ | ⟨reason, hnext, hcount, hmore⟩
  · refine ⟨⟨events ++ [.done entity.name], by rw [hnext, hevents]; rfl,
      List.rel_append htold (.cons (.inl rfl) .nil)⟩, ?_, ?_, ?_⟩
    · rw [hnext, htally, hcount, ← hdone]
      exact List.length_append
    · rw [hnext, htally, hsame, ← hfailed]
      rfl
    · rw [hcount, hsame, List.length_append, ← htotal]
      exact Nat.add_right_comm _ _ _
  · refine ⟨⟨events ++ [.failed entity.name reason], by rw [hnext, hevents]; rfl,
      List.rel_append htold (.cons (.inr ⟨reason, rfl⟩) .nil)⟩, ?_, ?_, ?_⟩
    · rw [hnext, htally, hcount, ← hdone]
      rfl
    · rw [hnext, htally, hmore, ← hfailed]
      rfl
    · rw [hcount, hmore, List.length_append, List.length_append, ← htotal]
      rfl

end FetchState.Tells

/-- What has been told by a stage over the refs that has come to its end. -/
structure FetchState.Accounts (refs : List Entity) (state : FetchState) : Prop where
  told : ∃ events, state.events = .begin refs.length :: events ++ [.finish] ∧
    List.Forall₂ Entity.IsToldBy refs events
  done : (Tally.ofEvents state.events).done.length =
    state.report.fetched + state.report.alreadyCached
  failed : (Tally.ofEvents state.events).failed = state.report.failed
  total : state.report.fetched + state.report.alreadyCached + state.report.failed.length =
    refs.length

theorem accounts_fetchAll (site : Site) (root : Path) (refs : List Entity) (tree : Tree) :
    (fetchAll site root refs tree).Accounts refs := by
  have hstart : (FetchState.start refs.length tree).Tells refs.length [] :=
    ⟨⟨[], rfl, .nil⟩, rfl, rfl, rfl⟩
  have hall : (refs.foldl (FetchState.visit site root)
      (FetchState.start refs.length tree)).Tells refs.length refs :=
    foldl_visit_induction site root refs hstart fun _ _ entity _ _ h => h.visit entity
  obtain ⟨⟨events, hevents, htold⟩, hdone, hfailed, htotal⟩ := hall
  have htally : ∀ events, Tally.ofEvents (events ++ [.finish]) =
      (Tally.ofEvents events).add .finish := fun events => by
    rw [Tally.ofEvents, List.foldl_append]
    rfl
  refine ⟨⟨events, congrArg (· ++ [Event.finish]) hevents, htold⟩, ?_, ?_, htotal⟩
  · exact (congrArg (·.done.length) (htally _)).trans hdone
  · exact (congrArg (·.failed) (htally _)).trans hfailed

end Told

section Left

/-! What a fetch stage leaves. -/

/-- The page of the ref is brought to the place: it was not there and the ref does not fail. -/
def FetchState.Brings (site : Site) (root : Path) (stored : Entity) (state next : FetchState)
    (place : Place) : Prop :=
  isCached state.tree root stored = false ∧ ¬ Stuck site root state.tree stored ∧
    next.report.failed = state.report.failed ∧ place = stored.pagePlace state.tree.home root

/-- What happens at a ref: no page of the cache is lost, the ref is cached or stuck at the end, and
the only files that change are its page, if that is brought, and the sibling of it. -/
structure FetchState.Visits (site : Site) (root : Path) (stored : Entity)
    (state next : FetchState) : Prop where
  home : next.tree.home = state.tree.home
  cached : ∀ entity, '/' ∉ entity.name → isCached state.tree root entity = true →
    isCached next.tree root entity = true
  stuck : ∀ entity, '/' ∉ entity.name → (entity.name = stored.name → entity.url = stored.url) →
    Stuck site root state.tree entity → Stuck site root next.tree entity
  ended : (isCached next.tree root stored = true ∧ next.report.failed = state.report.failed) ∨
    (isCached state.tree root stored = false ∧ Stuck site root next.tree stored ∧
      next.report.failed = state.report.failed ++ [stored.name])
  arrived : ∀ place content, next.tree.get? place = some (.file content) →
    state.tree.get? place = some (.file content) ∨
      state.Brings site root stored next place ∧
        ∃ body, site.fetch stored.url = .ok body ∧ content = .text body
  stays : ∀ place content, state.tree.get? place = some (.file content) →
    next.tree.get? place = some (.file content) ∨
      (isCached state.tree root stored = false ∧ place = stored.pagePart state.tree.home root) ∨
      state.Brings site root stored next place

variable {site : Site} {root : Path} {stored entity : Entity} {state next : FetchState}
  {tree : Tree} {seen refs : List Entity}

theorem Stuck.congr (h : Stuck site root tree entity) (hnames : entity.name = stored.name)
    (hurls : entity.url = stored.url) : Stuck site root tree stored := fun body hfetch => by
  rw [← pageEdit_congr hnames]
  exact h body (by rw [hurls, hfetch])

theorem FetchState.Visits.of_same (htree : next.tree = state.tree)
    (hended : (isCached state.tree root stored = true ∧ next.report.failed = state.report.failed) ∨
      (isCached state.tree root stored = false ∧ Stuck site root state.tree stored ∧
        next.report.failed = state.report.failed ++ [stored.name])) :
    state.Visits site root stored next where
  home := by rw [htree]
  cached entity _ hcached := by rwa [htree]
  stuck entity _ _ hstuck := by rwa [htree]
  ended := by rwa [htree]
  arrived place content h := .inl (by rwa [htree] at h)
  stays place content h := .inl (by rwa [htree])

theorem visits_visit (hstored : '/' ∉ stored.name) (site : Site) (root : Path)
    (state : FetchState) : state.Visits site root stored (state.visit site root stored) := by
  rcases visit_cases hstored site root state with ⟨hin, htree, hreport⟩ |
    ⟨hout, ⟨e, hfetch⟩, htree, hreport⟩ | ⟨hout, body, hfetch, htree, hreport⟩
  · exact .of_same htree (.inl ⟨hin, by rw [hreport]⟩)
  · refine .of_same htree (.inr ⟨hout, fun body hbody => ?_, by rw [hreport]⟩)
    rw [hfetch] at hbody
    cases hbody
  have heffect := Entity.writePage_effect hstored root body state.tree
  have hfit : stored.Fits root state.tree body →
      ¬ Stuck site root state.tree stored ∧
        (state.visit site root stored).report.failed = state.report.failed := fun hfit => by
    rw [Entity.Fits] at hfit
    refine ⟨fun hstuck => ?_, by rw [hreport, if_pos hfit]⟩
    rw [hstuck body hfetch] at hfit
    cases hfit
  refine ⟨?home, ?cached, ?stuck, ?ended, ?arrived, ?stays⟩
  case home => rw [htree, heffect.home]
  case cached =>
    intro entity hname hcached
    rw [htree]
    exact isCached_store hstored hout body hname hcached
  case stuck =>
    intro entity hname hurl hstuck
    rw [htree]
    exact hstuck.store hname hstored hfetch hurl
  case ended =>
    rw [htree]
    cases hdone : ((stored.pageEdit state.tree.home root body).run state.tree.get?).1 with
    | true => exact .inl ⟨isCached_of_done hstored hdone, (hfit hdone).2⟩
    | false =>
      refine .inr ⟨hout, .of_failed hstored hfetch hdone, ?_⟩
      rw [hreport, hdone]
      rfl
  case arrived =>
    intro place content h
    rw [htree] at h
    refine (Entity.store_arrived hstored h).imp_right ?_
    rintro ⟨hdone, hplace, hcontent⟩
    exact ⟨⟨hout, (hfit hdone).1, (hfit hdone).2, hplace⟩, body, hfetch, hcontent⟩
  case stays =>
    intro place content h
    rw [htree]
    refine (Entity.store_stays hstored h).imp_right (Or.imp (fun hplace => ⟨hout, hplace⟩) ?_)
    rintro ⟨hdone, hplace⟩
    exact ⟨hout, (hfit hdone).1, (hfit hdone).2, hplace⟩

/-- What a fetch stage has made of a tree when it has been at some refs. -/
structure Midway (site : Site) (root : Path) (tree : Tree) (seen : List Entity)
    (state : FetchState) : Prop where
  home : state.tree.home = tree.home
  cached : ∀ entity, '/' ∉ entity.name → isCached tree root entity = true →
    isCached state.tree root entity = true
  there : ∀ entity ∈ seen, entity.name ∉ state.report.failed →
    isCached state.tree root entity = true
  refused : ∀ name ∈ state.report.failed, ∃ entity ∈ seen, entity.name = name ∧
    isCached tree root entity = false ∧ Stuck site root state.tree entity
  arrived : ∀ place content, state.tree.get? place = some (.file content) →
    tree.get? place = some (.file content) ∨
      ∃ entity ∈ seen, isCached tree root entity = false ∧ entity.name ∉ state.report.failed ∧
        place = entity.pagePlace tree.home root ∧
          ∃ body, site.fetch entity.url = .ok body ∧ content = .text body
  stays : ∀ place content, tree.get? place = some (.file content) →
    state.tree.get? place = some (.file content) ∨
      ∃ entity ∈ seen, isCached tree root entity = false ∧
        (place = entity.pagePart tree.home root ∨
          entity.name ∉ state.report.failed ∧ place = entity.pagePlace tree.home root)

namespace Midway

variable (h : Midway site root tree seen state) (hstored : '/' ∉ stored.name)
  (hvisits : state.Visits site root stored next)

include h

theorem isCached_of_visit (hstored : '/' ∉ stored.name)
    (hout : isCached state.tree root stored = false) : isCached tree root stored = false := by
  rw [← Bool.not_eq_true]
  intro hcached
  rw [h.cached stored hstored hcached] at hout
  cases hout

theorem not_failed_of_brings (hurls : ∀ entity ∈ seen, entity.name = stored.name →
      entity.url = stored.url) {place : Place}
    (hbrings : state.Brings site root stored next place) :
    stored.name ∉ next.report.failed := by
  obtain ⟨-, hfits, hsame, -⟩ := hbrings
  rw [hsame]
  intro hfailed
  obtain ⟨entity, hmem, hnames, -, hstuck⟩ := h.refused _ hfailed
  exact hfits (hstuck.congr hnames (hurls entity hmem hnames))

include hvisits

theorem not_failed (hmem : entity ∈ seen) (hname : entity.name ∉ state.report.failed) :
    entity.name ∉ next.report.failed := by
  rcases hvisits.ended with ⟨-, hsame⟩ | ⟨hout, -, hmore⟩
  · rwa [hsame]
  · rw [hmore, List.mem_append, List.mem_singleton]
    rintro (hfailed | hnames)
    · exact hname hfailed
    · rw [← isCached_congr hnames, h.there entity hmem hname] at hout
      cases hout

theorem extend (hseen : ∀ entity ∈ seen, '/' ∉ entity.name) (hstored : '/' ∉ stored.name)
    (hurls : ∀ entity ∈ seen, entity.name = stored.name → entity.url = stored.url) :
    Midway site root tree (seen ++ [stored]) next := by
  have hmem : ∀ {entity}, entity ∈ seen → entity ∈ seen ++ [stored] := fun hmem =>
    List.mem_append_left _ hmem
  have hlast : stored ∈ seen ++ [stored] := by simp
  refine ⟨hvisits.home.trans h.home, fun entity hname hcached =>
    hvisits.cached entity hname (h.cached entity hname hcached), ?there, ?refused, ?arrived, ?stays⟩
  case there =>
    intro entity hin hname
    rcases hvisits.ended with ⟨hcached, hsame⟩ | ⟨-, -, hmore⟩
    · rcases List.mem_append.mp hin with hin | hin
      · exact hvisits.cached entity (hseen entity hin) (h.there entity hin (hsame ▸ hname))
      · rw [List.mem_singleton.mp hin, hcached]
    · rw [hmore, List.mem_append, not_or, List.mem_singleton] at hname
      rcases List.mem_append.mp hin with hin | hin
      · exact hvisits.cached entity (hseen entity hin) (h.there entity hin hname.1)
      · exact absurd (congrArg Entity.name (List.mem_singleton.mp hin)) hname.2
  case refused =>
    have hold : ∀ name ∈ state.report.failed, ∃ entity ∈ seen ++ [stored], entity.name = name ∧
        isCached tree root entity = false ∧ Stuck site root next.tree entity := by
      intro name hname
      obtain ⟨entity, hin, hnames, hmissing, hstuck⟩ := h.refused name hname
      exact ⟨entity, hmem hin, hnames, hmissing,
        hvisits.stuck entity (hseen entity hin) (hurls entity hin) hstuck⟩
    intro name hname
    rcases hvisits.ended with ⟨-, hsame⟩ | ⟨hout, hstuck, hmore⟩
    · exact hold name (hsame ▸ hname)
    · rw [hmore, List.mem_append, List.mem_singleton] at hname
      rcases hname with hname | rfl
      · exact hold name hname
      · exact ⟨stored, hlast, rfl, h.isCached_of_visit hstored hout, hstuck⟩
  case arrived =>
    intro place content hfile
    rcases hvisits.arrived place content hfile with hbefore | ⟨hbrings, hbody⟩
    · refine (h.arrived place content hbefore).imp_right ?_
      rintro ⟨entity, hin, hmissing, hname, hplace, hbody⟩
      exact ⟨entity, hmem hin, hmissing, h.not_failed hvisits hin hname, hplace, hbody⟩
    · obtain ⟨hout, -, -, hplace⟩ := id hbrings
      exact .inr ⟨stored, hlast, h.isCached_of_visit hstored hout,
        h.not_failed_of_brings hurls hbrings, by rw [hplace, h.home], hbody⟩
  case stays =>
    intro place content hfile
    rcases h.stays place content hfile with hkept | ⟨entity, hin, hmissing, hplace⟩
    · refine (hvisits.stays place content hkept).imp_right ?_
      rintro (⟨hout, hplace⟩ | hbrings)
      · exact ⟨stored, hlast, h.isCached_of_visit hstored hout, .inl (by rw [hplace, h.home])⟩
      · obtain ⟨hout, -, -, hplace⟩ := id hbrings
        exact ⟨stored, hlast, h.isCached_of_visit hstored hout,
          .inr ⟨h.not_failed_of_brings hurls hbrings, by rw [hplace, h.home]⟩⟩
    · exact .inr ⟨entity, hmem hin, hmissing,
        hplace.imp_right fun ⟨hname, hplace⟩ => ⟨h.not_failed hvisits hin hname, hplace⟩⟩

end Midway

theorem midway_fetchAll (hnames : ∀ entity ∈ refs, '/' ∉ entity.name)
    (hurls : ∀ entity ∈ refs, ∀ other ∈ refs, entity.name = other.name → entity.url = other.url)
    (site : Site) (root : Path) (tree : Tree) :
    Midway site root tree refs (fetchAll site root refs tree) := by
  have hstart : Midway site root tree [] (FetchState.start refs.length tree) :=
    ⟨rfl, fun _ _ hcached => hcached, fun _ hmem => absurd hmem List.not_mem_nil,
      fun _ hname => absurd hname List.not_mem_nil, fun _ _ hfile => .inl hfile,
      fun _ _ hfile => .inl hfile⟩
  have hall : Midway site root tree refs (refs.foldl (FetchState.visit site root)
      (FetchState.start refs.length tree)) :=
    foldl_visit_induction site root refs hstart fun seen hseen entity hmem state h =>
      h.extend (visits_visit (hnames entity hmem) site root state)
        (fun other ho => hnames other (hseen ho)) (hnames entity hmem) fun other ho =>
          hurls other (hseen ho) entity hmem
  exact ⟨hall.home, hall.cached, hall.there, hall.refused, hall.arrived, hall.stays⟩

/-- What a fetch stage over the refs leaves of a tree. -/
structure Fetched (site : Site) (root : Path) (refs : List Entity) (tree : Tree)
    (last : FetchState) : Prop where
  /-- Pages of the cache are as they were. -/
  kept : ∀ entity, '/' ∉ entity.name → isCached tree root entity = true →
    last.tree.lookup (entity.cachePath root) = tree.lookup (entity.cachePath root)
  /-- A ref that has not failed has a page: the one from the site, or one that was there. -/
  there : ∀ entity ∈ refs, entity.name ∉ last.report.failed → ∃ content,
    last.tree.lookup (entity.cachePath root) =
        .ok (entity.pagePlace tree.home root, .file content) ∧
      (tree.get? (entity.pagePlace tree.home root) = some (.file content) ∨
        ∃ body, site.fetch entity.url = .ok body ∧ content = .text body)
  /-- A ref that has failed had no page, cannot have one, and nothing has been put in its place. -/
  failed : ∀ entity ∈ refs, entity.name ∈ last.report.failed →
    isCached tree root entity = false ∧ Stuck site root last.tree entity ∧
      tree.SameFile last.tree (entity.pagePlace tree.home root)
  /-- No sibling has been left behind. -/
  parts : ∀ entity ∈ refs, ∀ content,
    last.tree.get? (entity.pagePart tree.home root) = some (.file content) →
      tree.get? (entity.pagePart tree.home root) = some (.file content)
  /-- No other file has changed. -/
  others : ∀ place, (∀ entity ∈ refs, isCached tree root entity = false →
      place ≠ entity.pagePart tree.home root ∧
        (entity.name ∉ last.report.failed → place ≠ entity.pagePlace tree.home root)) →
    tree.SameFile last.tree place
  /-- Below a root that is found no page is uncovered. -/
  found : tree.Finds root → ∀ entity ∈ refs,
    (entity.name ∉ last.report.failed → isCached tree root entity = false →
      ∃ body, site.fetch entity.url = .ok body ∧ last.tree.lookup (entity.cachePath root) =
        .ok (entity.pagePlace tree.home root, .file (.text body))) ∧
    (entity.name ∈ last.report.failed → isCached last.tree root entity = false)

/-- A page is not written where another one is staged. -/
theorem pagePlace_ne_pagePart {other : Entity} {home : Place} :
    entity.pagePlace home root ≠ other.pagePart home root := fun hplace =>
  absurd (Entity.fileName_eq_of_filePlace hplace).2 (by decide)

namespace Midway

variable (h : Midway site root tree refs state)

include h

/-- A place where nothing is brought and nothing is staged. -/
theorem sameFile {place : Place} (hplace : ∀ entity ∈ refs, isCached tree root entity = false →
      place ≠ entity.pagePart tree.home root ∧
        (entity.name ∉ state.report.failed → place ≠ entity.pagePlace tree.home root)) :
    tree.SameFile state.tree place := by
  intro content
  constructor
  · intro hfile
    rcases h.arrived place content hfile with hbefore | ⟨entity, hmem, hmissing, hname, hpage, -⟩
    · exact hbefore
    · exact absurd hpage ((hplace entity hmem hmissing).2 hname)
  · intro hfile
    rcases h.stays place content hfile with
      hafter | ⟨entity, hmem, hmissing, hpart | ⟨hname, hpage⟩⟩
    · exact hafter
    · exact absurd hpart (hplace entity hmem hmissing).1
    · exact absurd hpage ((hplace entity hmem hmissing).2 hname)

theorem sameFile_pagePlace (hsettled : ∀ other ∈ refs, other.name = entity.name →
      isCached tree root other = false → other.name ∈ state.report.failed) :
    tree.SameFile state.tree (entity.pagePlace tree.home root) := by
  refine h.sameFile fun other hmem hmissing => ⟨pagePlace_ne_pagePart, fun hname hplace => ?_⟩
  exact hname (hsettled other hmem (Entity.name_eq_of_filePlace hplace).symm hmissing)

theorem lookup_of_cached (hname : '/' ∉ entity.name) (hcached : isCached tree root entity = true) :
    state.tree.lookup (entity.cachePath root) = tree.lookup (entity.cachePath root) := by
  obtain ⟨hcheck, hopen, hfile⟩ := (isCached_iff hname).mp hcached
  obtain ⟨content, hcontent⟩ := isFileAt_iff.mp hfile
  obtain ⟨-, hreaches, -⟩ := (isCached_iff hname).mp (h.cached entity hname hcached)
  have hsame : tree.SameFile state.tree (entity.pagePlace tree.home root) := by
    refine h.sameFile_pagePlace fun other _ hnames hmissing => ?_
    rw [isCached_congr hnames, hcached] at hmissing
    cases hmissing
  rw [(lookup_page_iff hname).mpr ⟨hcheck, hopen, rfl, hcontent⟩, lookup_page_iff hname, h.home]
  exact ⟨hcheck, hreaches, rfl, (hsame content).mpr hcontent⟩

theorem refused_of_failed (hurls : ∀ other ∈ refs, other.name = entity.name →
      other.url = entity.url) (hname : entity.name ∈ state.report.failed) :
    isCached tree root entity = false ∧ Stuck site root state.tree entity := by
  obtain ⟨other, hmem, hnames, hmissing, hstuck⟩ := h.refused _ hname
  exact ⟨by rw [← isCached_congr hnames, hmissing], hstuck.congr hnames (hurls other hmem hnames)⟩

/-- A page that is there was there before, or has been brought from its address. -/
theorem content_of_there (hurls : ∀ other ∈ refs, other.name = entity.name →
      other.url = entity.url) (hname : '/' ∉ entity.name)
    (hcached : isCached state.tree root entity = true) : ∃ content,
    state.tree.lookup (entity.cachePath root) =
        .ok (entity.pagePlace tree.home root, .file content) ∧
      (tree.get? (entity.pagePlace tree.home root) = some (.file content) ∨
        ∃ body, site.fetch entity.url = .ok body ∧ content = .text body) := by
  obtain ⟨hcheck, hopen, hfile⟩ := (isCached_iff hname).mp hcached
  obtain ⟨content, hcontent⟩ := isFileAt_iff.mp hfile
  have hlookup := (lookup_page_iff hname).mpr ⟨hcheck, hopen, rfl, hcontent⟩
  rw [h.home] at hlookup hcontent
  refine ⟨content, hlookup, (h.arrived _ content hcontent).imp_right ?_⟩
  rintro ⟨other, hmem, -, -, hplace, hbody⟩
  rwa [hurls other hmem (Entity.name_eq_of_filePlace hplace).symm] at hbody

theorem fetched (hnames : ∀ entity ∈ refs, '/' ∉ entity.name)
    (hurls : ∀ entity ∈ refs, ∀ other ∈ refs, entity.name = other.name → entity.url = other.url) :
    Fetched site root refs tree state := by
  have hsame : ∀ entity ∈ refs, ∀ other ∈ refs, other.name = entity.name →
      other.url = entity.url := fun entity hmem other ho hname => hurls other ho entity hmem hname
  have hleft : ∀ entity : Entity, entity.name ∈ state.report.failed →
      tree.SameFile state.tree (entity.pagePlace tree.home root) := fun entity hfailed =>
    h.sameFile_pagePlace fun _ _ hname _ => hname ▸ hfailed
  -- Below a root that is found a page at its place is a page in the cache.
  have huncovered : ∀ entity ∈ refs, tree.Finds root → isCached tree root entity = false →
      isCached state.tree root entity = true → ∀ content,
        tree.get? (entity.pagePlace tree.home root) ≠ some (.file content) := by
    intro entity hmem hfinds hmissing hcached content hbefore
    obtain ⟨hcheck, -⟩ := (isCached_iff (hnames entity hmem)).mp hcached
    rw [isCached_of_file (hnames entity hmem) hfinds hcheck
      (isFileAt_iff.mpr ⟨content, hbefore⟩)] at hmissing
    cases hmissing
  refine ⟨fun entity => h.lookup_of_cached, ?there, ?failed, ?parts, fun place => h.sameFile,
    fun hfinds entity hmem => ⟨?brought, ?missing⟩⟩
  case there =>
    exact fun entity hmem hname => h.content_of_there (hsame entity hmem) (hnames entity hmem)
      (h.there entity hmem hname)
  case failed =>
    intro entity hmem hfailed
    obtain ⟨hmissing, hstuck⟩ := h.refused_of_failed (hsame entity hmem) hfailed
    exact ⟨hmissing, hstuck, hleft entity hfailed⟩
  case parts =>
    intro entity _ content hfile
    refine (h.arrived _ content hfile).resolve_right ?_
    rintro ⟨other, -, -, -, hplace, -⟩
    exact pagePlace_ne_pagePart hplace.symm
  case brought =>
    intro hname hmissing
    have hcached := h.there entity hmem hname
    obtain ⟨content, hlookup, hbefore | ⟨body, hfetch, rfl⟩⟩ :=
      h.content_of_there (hsame entity hmem) (hnames entity hmem) hcached
    · exact absurd hbefore (huncovered entity hmem hfinds hmissing hcached content)
    · exact ⟨body, hfetch, hlookup⟩
  case missing =>
    intro hfailed
    obtain ⟨hmissing, -⟩ := h.refused_of_failed (hsame entity hmem) hfailed
    rw [← Bool.not_eq_true]
    intro hcached
    obtain ⟨-, -, hfile⟩ := (isCached_iff (hnames entity hmem)).mp hcached
    obtain ⟨content, hcontent⟩ := isFileAt_iff.mp hfile
    rw [h.home] at hcontent
    exact huncovered entity hmem hfinds hmissing hcached content
      ((hleft entity hfailed content).mp hcontent)

end Midway

/-- A fetch stage tells of every ref and counts it. It leaves pages of the cache as they are, brings
a page for every ref that does not fail, and puts nothing in the place of one that does. -/
theorem fetchAll_fetched (hnames : ∀ entity ∈ refs, '/' ∉ entity.name)
    (hurls : ∀ entity ∈ refs, ∀ other ∈ refs, entity.name = other.name → entity.url = other.url)
    (site : Site) (root : Path) (tree : Tree) :
    (fetchAll site root refs tree).Accounts refs ∧
      Fetched site root refs tree (fetchAll site root refs tree) :=
  ⟨accounts_fetchAll site root refs tree,
    (midway_fetchAll hnames hurls site root tree).fetched hnames hurls⟩

/-- A cache with a page, and with a directory where the sibling of another one would go. -/
def clutteredTree : Tree :=
  [(["c".toList], Entry.directory), (["c".toList, "p".toList], .directory),
    (["c".toList, "p".toList, "T.html".toList], .file (.text "old".toList)),
    (["c".toList, "p".toList, "T.html.part".toList], .directory),
    (["c".toList, "p".toList, "U.html.part".toList], .directory)].foldl
      (fun tree item => tree.put item.1 item.2) (Tree.bare [])

def clutteredSite : Site := Site.ofPages
  [("t".toList, "new".toList), ("u".toList, "new".toList), ("v".toList, "new".toList)]

/-- One page is cached, one cannot be staged and one is brought. -/
theorem fetchAll_fetched_cluttered :
    let t : Entity := ⟨"p.T".toList, "t".toList, by decide⟩
    let u : Entity := ⟨"p.U".toList, "u".toList, by decide⟩
    let v : Entity := ⟨"p.V".toList, "v".toList, by decide⟩
    let last := fetchAll clutteredSite ⟨"c".toList⟩ [t, u, v, u] clutteredTree
    last.report = ⟨1, 1, [u.name, u.name]⟩ ∧ clutteredTree.Finds ⟨"c".toList⟩ ∧
      last.Accounts [t, u, v, u] ∧
      Fetched clutteredSite ⟨"c".toList⟩ [t, u, v, u] clutteredTree last := by
  intro t u v last
  have hreport : last.report = ⟨1, 1, [u.name, u.name]⟩ := by decide +kernel
  exact ⟨hreport, .inl (by decide), fetchAll_fetched (by decide) (by decide) clutteredSite
    ⟨"c".toList⟩ clutteredTree⟩

/-- A failed ref can have a page in the end, which was there before but could not be reached. -/
theorem not_isCached_of_failed :
    ¬ ∀ (site : Site) (root : Path) (refs : List Entity) (tree : Tree),
      (∀ entity ∈ refs, '/' ∉ entity.name) →
      (∀ entity ∈ refs, ∀ other ∈ refs, entity.name = other.name → entity.url = other.url) →
      ∀ entity ∈ refs, entity.name ∈ (fetchAll site root refs tree).report.failed →
        isCached (fetchAll site root refs tree).tree root entity = false := by
  intro hclaim
  have huncovered := hclaim clutteredSite ⟨"x/../c".toList⟩
    [⟨"p.T".toList, "t".toList, by decide⟩] clutteredTree (by decide) (by decide) _
    List.mem_cons_self (by decide +kernel)
  exact absurd huncovered (by decide +kernel)

end Left

end ClassSkeleton

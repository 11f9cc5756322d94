import ClassSkeleton.Proofs.Catalog.Names
import ClassSkeleton.Proofs.Markup.Reflow
import ClassSkeleton.TypeRef

/-!
Links to the pages of the index. From wherever a page of the documentation links to another one,
with as many steps up as it needs and with or without an anchor, the target of the link names the
type by the very name that the index gives it.
-/
namespace ClassSkeleton

open Text

namespace Text

theorem splitOn_join_flatMap (c : Char) {pieces : List Text} (hne : pieces ≠ []) :
    splitOn [c] (join [c] pieces) = pieces.flatMap (splitOn [c]) := by
  induction pieces with
  | nil => exact absurd rfl hne
  | cons piece pieces ih =>
    by_cases hpieces : pieces = []
    · subst hpieces
      simp [join, List.intercalate]
    · rw [join_cons _ _ hpieces, List.append_assoc, List.singleton_append, splitOn_append_char,
        ih hpieces, List.flatMap_cons]

theorem ends_of_trim {text : Text} (h : trim text = text) (hne : text ≠ []) :
    (∃ c rest, text = c :: rest ∧ isBlank c = false) ∧
      ∃ front c, text = front ++ [c] ∧ isBlank c = false := by
  have hstart : trimStart text = text := by
    have hlength := (trimEnd_isPrefix (trimStart text)).length_le
    have hsuffix : trimStart text <:+ text := List.dropWhile_suffix _
    exact hsuffix.eq_of_length_le (by rw [← trim, h] at hlength; exact hlength)
  have hend : trimEnd text = text := by rw [trim, hstart] at h; exact h
  constructor
  · obtain ⟨c, rest, rfl⟩ := List.exists_cons_of_ne_nil hne
    refine ⟨c, rest, rfl, ?_⟩
    by_contra hc
    have hdrop := (List.dropWhile_suffix (l := rest) isBlank).length_le
    rw [trimStart, List.dropWhile_cons, if_pos (by simpa using hc)] at hstart
    rw [hstart, List.length_cons] at hdrop
    omega
  · obtain ⟨front, c, rfl⟩ := (List.eq_nil_or_concat' text).resolve_left hne
    refine ⟨front, c, rfl, ?_⟩
    by_contra hc
    have hdrop := (List.dropWhile_suffix (l := front.reverse) isBlank).length_le
    have hlength := congrArg List.length hend
    rw [trimEnd, List.reverse_append, List.reverse_singleton, List.singleton_append,
      List.dropWhile_cons, if_pos (by simpa using hc),
      List.length_reverse] at hlength
    simp only [List.length_reverse, List.length_append, List.length_singleton] at hdrop hlength
    omega

theorem trim_append_cons {front : Text} {c : Char} (rest : Text)
    (hfront : ∀ d ∈ front.head?, isBlank d = false) (hc : isBlank c = false) :
    trim (front ++ c :: rest) = front ++ c :: trimEnd rest := by
  have hstart : trimStart (front ++ c :: rest) = front ++ c :: rest := by
    cases front with
    | nil => exact trimStart_cons rest hc
    | cons d front => exact trimStart_cons (front ++ c :: rest) (hfront d rfl)
  rw [trim, hstart, trimEnd_append_cons front rest hc]

theorem dropEndMark?_append_getD {mark front text : Text}
    (h : ∀ c ∈ front.getLast?, c ∉ mark) :
    (dropEndMark? mark (front ++ text)).getD (front ++ text) =
      front ++ (dropEndMark? mark text).getD text := by
  by_cases hsuffix : mark <:+ text
  · obtain ⟨stem, rfl⟩ := hsuffix
    rw [← List.append_assoc, dropEndMark?_append, dropEndMark?_append]
    rfl
  · have hnot : ¬ mark <:+ front ++ text := by
      intro hmark
      rcases List.suffix_or_suffix_of_suffix hmark (List.suffix_append front text) with hin | hout
      · exact hsuffix hin
      · obtain ⟨before, rfl⟩ := hout
        rcases List.eq_nil_or_concat' before with rfl | ⟨start, c, rfl⟩
        · exact hsuffix List.suffix_rfl
        · obtain ⟨lead, hlead⟩ := hmark
          rw [← List.append_assoc, List.append_cancel_right_eq, ← List.append_assoc] at hlead
          exact h c (by rw [← hlead]; simp) (by simp)
    have hdrop : ∀ {other : Text}, ¬ mark <:+ other → dropEndMark? mark other = none := by
      intro other hother
      rw [dropEndMark?, if_neg (by rwa [List.isSuffixOf_iff_suffix])]
    rw [hdrop hsuffix, hdrop hnot]
    rfl

end Text

namespace Catalog

/-- The page that a target of the index names, without its ending. -/
def pageStem (target : Text) : Text := (dropEndMark? pageEnding target).getD target

def steps (depth : Nat) : Text := (List.replicate depth "../".toList).flatten

/-- The target of a link to a page of the index, from a page so many directories down. -/
def linkTo (target : Text) (depth : Nat) (anchor : Option Text) : Text :=
  steps depth ++ (target ++ (anchor.map ('#' :: ·)).getD [])

/-- A target of the index that is neither a link into a page nor one to another site. -/
structure IsPlainTarget (target : Text) : Prop where
  anchorless : '#' ∉ target
  here : ¬ "://".toList <:+: target
  trimmed : trim target = target

/-- The text is the target of a link to a page of the index. -/
def IsLinkTo (target link : Text) : Prop :=
  ∃ depth anchor, (∀ text ∈ anchor, '"' ∉ text ∧ ¬ "://".toList <:+: text) ∧
    link = linkTo target depth anchor

variable {target baseUrl : Text} {entity : Entity}

theorem steps_succ (depth : Nat) : steps (depth + 1) = "../".toList ++ steps depth := by
  rw [steps, List.replicate_succ, List.flatten_cons, steps]

theorem steps_ends (depth : Nat) :
    (∀ c ∈ (steps depth).head?, isBlank c = false) ∧ ∀ c ∈ (steps depth).getLast?, c = '/' := by
  induction depth with
  | zero => exact ⟨by simp [steps], by simp [steps]⟩
  | succ depth ih =>
    refine ⟨fun c hc => ?_, fun c hc => ?_⟩
    · rw [steps_succ] at hc
      obtain rfl : '.' = c := by simpa using hc
      decide
    · rw [steps_succ, List.getLast?_append] at hc
      cases hlast : (steps depth).getLast? with
      | none =>
        rw [hlast] at hc
        simpa using hc.symm
      | some d =>
        rw [hlast] at hc
        obtain rfl : d = c := by simpa using hc
        exact ih.2 d hlast

theorem infix_steps_iff {mark : Text} (hmark : mark ≠ []) (hdot : '.' ∉ mark)
    (hslash : ¬ ['/'] <+: mark) (depth : Nat) (text : Text) :
    mark <:+: steps depth ++ text ↔ mark <:+: text := by
  induction depth with
  | zero => rfl
  | succ depth ih =>
    have hdots : mark <:+: '.' :: '.' :: '/' :: (steps depth ++ text) ↔
        mark <:+: '/' :: (steps depth ++ text) := by
      have hskip : ∀ rest : Text, mark <:+: '.' :: rest ↔ mark <:+: rest := fun rest => by
        rw [← List.nil_append ('.' :: rest), infix_append_cons_iff hmark hdot]
        simp [hmark]
      rw [hskip, hskip]
    have hroot : ¬ mark <+: '/' :: (steps depth ++ text) := by
      obtain ⟨c, rest, rfl⟩ := List.exists_cons_of_ne_nil hmark
      intro hprefix
      obtain ⟨rfl, -⟩ := List.cons_prefix_cons.mp hprefix
      exact hslash (by simp)
    rw [steps_succ, ← ih]
    exact hdots.trans (by rw [List.infix_cons_iff]; simp [hroot])

theorem splitOn_steps (depth : Nat) (text : Text) :
    splitOn ['/'] (steps depth ++ text) =
      List.replicate depth "..".toList ++ splitOn ['/'] text := by
  induction depth with
  | zero => rfl
  | succ depth ih =>
    have hstep := splitOn_cons_char (steps depth ++ text) (show '/' ∉ "..".toList by decide)
    rw [steps_succ, List.replicate_succ, List.cons_append, ← ih, ← hstep, List.append_assoc]
    rfl

theorem dottedName_eq (target : Text) :
    dottedName target = join ['.'] (splitOn ['/'] (pageStem target)) := by
  have hpieces : (splitOn ['/'] (pageStem target)).map
      (fun piece => piece.map fun c => if c = '/' then '.' else c) =
        splitOn ['/'] (pageStem target) := by
    refine (List.map_congr_left fun piece hmem => ?_).trans (List.map_id _)
    refine (List.map_congr_left fun c hc => if_neg ?_).trans (List.map_id piece)
    rintro rfl
    exact not_mem_of_mem_splitOn hmem hc
  calc dottedName target
      = (join ['/'] (splitOn ['/'] (pageStem target))).map fun c => if c = '/' then '.' else c := by
        rw [join_splitOn (by simp)]
        rfl
    _ = join ['.'] (splitOn ['/'] (pageStem target)) := by
        rw [map_join, hpieces]
        rfl

/-- No segment of a page with a qualified name goes unheeded in a link. -/
theorem segments_of_qualified (h : isQualifiedName (dottedName target) = true) :
    (splitOn ['/'] (pageStem target)).filter (fun segment =>
      !segment.isEmpty && segment != "..".toList && segment != ".".toList) =
        splitOn ['/'] (pageStem target) := by
  have hpieces : splitOn ['/'] (pageStem target) ≠ [] := splitFrom_ne_nil _ _ _
  rw [isQualifiedName, dottedName_eq, splitOn_join_flatMap '.' hpieces, List.all_eq_true] at h
  refine List.filter_eq_self.mpr fun segment hmem => ?_
  have hblank : ∀ piece ∈ splitOn ['.'] segment, piece ≠ [] := by
    rintro piece hpiece rfl
    exact absurd (h [] (List.mem_flatMap.mpr ⟨segment, hmem, hpiece⟩)) (by decide)
  simp only [Bool.and_eq_true, Bool.not_eq_true', List.isEmpty_eq_false_iff, bne_iff_ne]
  refine ⟨⟨?_, ?_⟩, ?_⟩ <;> rintro rfl <;> exact hblank [] (by decide) rfl

theorem trim_linkTo (htarget : IsPlainTarget target) (hne : target ≠ []) (depth : Nat)
    (anchor : Option Text) :
    trim (linkTo target depth anchor) = linkTo target depth (anchor.map trimEnd) := by
  obtain ⟨⟨first, rest, hfirst, hstart⟩, front, last, hlast, hend⟩ :=
    ends_of_trim htarget.trimmed hne
  have hhead : ∀ d ∈ (steps depth ++ target).head?, isBlank d = false := by
    intro d hd
    rw [List.head?_append, hfirst] at hd
    cases hsteps : (steps depth).head? with
    | none =>
      rw [hsteps] at hd
      obtain rfl : first = d := by simpa using hd
      exact hstart
    | some e =>
      rw [hsteps] at hd
      obtain rfl : e = d := by simpa using hd
      exact (steps_ends depth).1 e hsteps
  cases anchor with
  | none =>
    have hbefore : ∀ d ∈ (steps depth ++ front).head?, isBlank d = false := fun d hd => by
      refine hhead d ?_
      rw [hlast, ← List.append_assoc, List.head?_append, hd]
      rfl
    have htrim : trim (steps depth ++ (front ++ [last])) = steps depth ++ (front ++ [last]) := by
      rw [← List.append_assoc]
      exact trim_append_cons [] hbefore hend
    rw [← hlast] at htrim
    simpa [linkTo] using htrim
  | some text =>
    have htrim := trim_append_cons text hhead (c := '#') (by decide)
    rw [List.append_assoc, List.append_assoc] at htrim
    exact htrim

theorem withoutHost?_linkTo (htarget : IsPlainTarget target) (depth : Nat) {anchor : Option Text}
    (hanchor : ∀ text ∈ anchor, ¬ "://".toList <:+: text) :
    TypeRef.withoutHost? (linkTo target depth anchor) = some (linkTo target depth anchor) := by
  have hnone : ¬ "://".toList <:+: linkTo target depth anchor := by
    rw [linkTo, infix_steps_iff (by decide) (by decide) (by decide)]
    cases anchor with
    | none =>
      rw [Option.map_none, Option.getD_none, List.append_nil]
      exact htarget.here
    | some text =>
      rw [Option.map_some, Option.getD_some, infix_append_cons_iff (by decide) (by decide)]
      exact not_or.mpr ⟨htarget.here, hanchor text rfl⟩
  rw [TypeRef.withoutHost?, (breakAt?_eq_none_iff (by decide) _).mpr hnone]

theorem targetSegments_linkTo (htarget : IsPlainTarget target)
    (hqualified : isQualifiedName (dottedName target) = true) (depth : Nat) (anchor : Option Text) :
    TypeRef.targetSegments (linkTo target depth anchor) = splitOn ['/'] (pageStem target) := by
  have hpass : ∀ c ∈ steps depth ++ target, (c != '#') = true := by
    intro c hc
    rw [bne_iff_ne]
    rintro rfl
    rcases List.mem_append.mp hc with hc | hc
    · obtain ⟨step, hstep, hc⟩ := List.mem_flatten.mp hc
      rw [List.eq_of_mem_replicate hstep] at hc
      exact absurd hc (by decide)
    · exact htarget.anchorless hc
  have hpage : (linkTo target depth anchor).takeWhile (· != '#') = steps depth ++ target := by
    rw [linkTo, ← List.append_assoc, List.takeWhile_append_of_pos hpass]
    cases anchor <;> simp
  have hstem : (dropEndMark? ".html".toList (steps depth ++ target)).getD (steps depth ++ target) =
      steps depth ++ pageStem target :=
    dropEndMark?_append_getD fun c hc => by rw [(steps_ends depth).2 c hc]; decide
  rw [TypeRef.targetSegments, hpage]
  simp only [hstem]
  rw [splitOn_steps, List.filter_append, segments_of_qualified hqualified]
  simp

/-- A link to a page of the index names the type that the index gives the page to. -/
theorem ofTarget?_linkTo (hentity : indexEntity baseUrl target = .ok entity)
    (htarget : IsPlainTarget target) (depth : Nat) {anchor : Option Text}
    (hanchor : ∀ text ∈ anchor, ¬ "://".toList <:+: text) :
    TypeRef.ofTarget? (linkTo target depth anchor) = some ⟨entity.name, entity.ident⟩ := by
  have hname := (name_of_ofName? hentity).1
  have hqualified : isQualifiedName (dottedName target) = true := hname ▸ entity.qualified
  have hne : target ≠ [] := by
    rintro rfl
    exact absurd hqualified (by decide)
  have hkept : ∀ text ∈ anchor.map trimEnd, ¬ "://".toList <:+: text := by
    intro text htext hocc
    obtain ⟨whole, hwhole, rfl⟩ := Option.map_eq_some_iff.mp htext
    exact hanchor whole hwhole (hocc.trans (trimEnd_isPrefix whole).isInfix)
  rw [TypeRef.ofTarget?, trim_linkTo htarget hne, withoutHost?_linkTo htarget depth hkept,
    Option.bind_some, targetSegments_linkTo htarget hqualified, Entity.ident, hname,
    dottedName_eq target]
  cases hsegments : splitOn ['/'] (pageStem target) with
  | nil => exact absurd hsegments (splitFrom_ne_nil _ _ _)
  | cons segment segments => rfl

end Catalog

end ClassSkeleton

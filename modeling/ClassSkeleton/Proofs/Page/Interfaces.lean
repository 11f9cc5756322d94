import ClassSkeleton.Proofs.Markup.Reflow
import ClassSkeleton.Proofs.Page.Lists
import Mathlib.Data.List.Infix

/-!
Lists of types as they are written: links with text such as commas between them, each with type
arguments in brackets or without, and type arguments are such a list again. The reader cuts the
text at the heads of the links and counts brackets in the pieces, so all it knows of the nesting is
a depth. It is zero exactly at the links that stand outside of all type arguments.
-/
namespace ClassSkeleton

namespace Outline

/-- The first type of each dotted name, in order. -/
def firstOfEach : List TypeRef → List TypeRef
  | [] => []
  | type :: types => type :: (firstOfEach types).filter fun other => other.dotted != type.dotted

theorem foldl_addContract (known types : List TypeRef) :
    types.foldl addContract known =
      known ++ (firstOfEach types).filter fun type =>
        known.all fun other => other.dotted != type.dotted := by
  induction types generalizing known with
  | nil => simp [firstOfEach]
  | cons type types ih =>
    rw [List.foldl_cons, ih, addContract, firstOfEach, List.filter_cons, List.filter_filter]
    by_cases hknown : (known.any fun other => other.dotted == type.dotted) = true
    · obtain ⟨other, hother, hname⟩ := List.any_eq_true.mp hknown
      have hsame : other.dotted = type.dotted := eq_of_beq hname
      have hleft : ¬ (known.all fun other => other.dotted != type.dotted) = true := by
        intro hall
        exact (bne_iff_ne.mp (List.all_eq_true.mp hall other hother)) hsame
      rw [if_pos hknown, if_neg hleft]
      congr 1
      apply List.filter_congr
      intro next _
      -- a name that is not among the known ones is not that of `type` either
      cases hnext : (known.all fun other => other.dotted != next.dotted) with
      | false => rfl
      | true =>
        have hne : other.dotted != next.dotted := List.all_eq_true.mp hnext other hother
        rw [hsame, bne_comm] at hne
        rw [hne, Bool.and_self]
    · have hright : (known.all fun other => other.dotted != type.dotted) = true := by
        simpa [List.any_eq_true] using hknown
      rw [if_neg hknown, if_pos hright, List.append_assoc, List.singleton_append]
      congr 2
      apply List.filter_congr
      intro next _
      rw [List.all_append, List.all_cons, List.all_nil, Bool.and_true, @bne_comm _ _ _ type.dotted]

theorem contractsOf_eq (types : List TypeRef) : contractsOf types = firstOfEach types := by
  rw [contractsOf, foldl_addContract]
  simp

end Outline

namespace ClassPage

open Text Markup

def bracketOpening : Text := "&lt;".toList

def bracketClosing : Text := "&gt;".toList

/-- The marks that the reader of a list of types goes by. -/
def typeMarks : List Text := [linkMark, bracketOpening, bracketClosing]

/-- A link as it is written: its target, its title and the name that it shows. -/
structure NamedLink where
  target : Text
  title : Text
  name : Text

namespace NamedLink

def body (link : NamedLink) : Text :=
  link.target ++ ['"'] ++ (" title=\"".toList ++ (link.title ++ ['"'] ++
    ('>' :: (link.name ++ "</a>".toList))))

def print (link : NamedLink) : Text := linkMark ++ link.body

/-- The target names a type, and none of the parts holds a mark. -/
structure IsProper (link : NamedLink) : Prop where
  quoteless : '"' ∉ link.target
  usable : (TypeRef.ofTarget? link.target).isSome
  target : ∀ mark ∈ typeMarks, ¬ mark <:+: link.target
  title : ∀ mark ∈ typeMarks, ¬ mark <:+: link.title
  name : ∀ mark ∈ typeMarks, ¬ mark <:+: link.name

instance (link : NamedLink) : Decidable link.IsProper :=
  decidable_of_iff ('"' ∉ link.target ∧ (TypeRef.ofTarget? link.target).isSome ∧
      ∀ part ∈ [link.target, link.title, link.name], ∀ mark ∈ typeMarks, ¬ mark <:+: part)
    ⟨fun ⟨hquote, husable, hparts⟩ => ⟨hquote, husable, hparts _ (by simp), hparts _ (by simp),
        hparts _ (by simp)⟩,
      fun h => ⟨h.quoteless, h.usable, by simpa using ⟨h.target, h.title, h.name⟩⟩⟩

/-- The quotes behind target and title do not complete the head of another link. -/
def IsClosed (link : NamedLink) : Prop :=
  ¬ linkMark <:+: link.target ++ ['"'] ∧ ¬ linkMark <:+: link.title ++ ['"']

instance (link : NamedLink) : Decidable link.IsClosed :=
  inferInstanceAs (Decidable (¬ linkMark <:+: link.target ++ ['"'] ∧
    ¬ linkMark <:+: link.title ++ ['"']))

end NamedLink

/-- A list of types. Text stands before each link and behind the last of them; a link is followed
by type arguments in brackets or stands alone. -/
inductive TypeList where
  | text (words : Text)
  | plain (words : Text) (link : NamedLink) (rest : TypeList)
  | applied (words : Text) (link : NamedLink) (arguments rest : TypeList)

namespace TypeList

def print : TypeList → Text
  | text words => words
  | plain words link rest => words ++ (link.print ++ rest.print)
  | applied words link arguments rest =>
    words ++ (link.print ++ (bracketOpening ++ (arguments.print ++ (bracketClosing ++ rest.print))))

/-- The links outside of all type arguments. -/
def types : TypeList → List NamedLink
  | text _ => []
  | plain _ link rest => link :: rest.types
  | applied _ link _ rest => link :: rest.types

/-- All links, with those in type arguments. -/
def links : TypeList → List NamedLink
  | text _ => []
  | plain _ link rest => link :: rest.links
  | applied _ link arguments rest => link :: (arguments.links ++ rest.links)

/-- All texts that stand before, between and behind links. -/
def texts : TypeList → List Text
  | text words => [words]
  | plain words _ rest => words :: rest.texts
  | applied words _ arguments rest => words :: (arguments.texts ++ rest.texts)

/-- No link of a list that stands inside of `depth` brackets is inside of more than can be
counted. -/
def Fits (depth : Nat) : TypeList → Prop
  | text _ => True
  | plain _ _ rest => depth ≤ 2147483647 ∧ rest.Fits depth
  | applied _ _ arguments rest =>
    depth ≤ 2147483647 ∧ arguments.Fits (depth + 1) ∧ rest.Fits depth

instance decidableFits : (depth : Nat) → (list : TypeList) → Decidable (list.Fits depth)
  | _, text _ => inferInstanceAs (Decidable True)
  | depth, plain _ _ rest =>
    have := decidableFits depth rest
    inferInstanceAs (Decidable (depth ≤ 2147483647 ∧ rest.Fits depth))
  | depth, applied _ _ arguments rest =>
    have := decidableFits (depth + 1) arguments
    have := decidableFits depth rest
    inferInstanceAs (Decidable (depth ≤ 2147483647 ∧ arguments.Fits (depth + 1) ∧ rest.Fits depth))

/-- No mark stands in the texts and in the parts of the links. -/
structure IsProper (list : TypeList) : Prop where
  texts : ∀ words ∈ list.texts, ∀ mark ∈ typeMarks, ¬ mark <:+: words
  links : ∀ link ∈ list.links, link.IsProper

def IsClosed (list : TypeList) : Prop := ∀ link ∈ list.links, link.IsClosed

instance (list : TypeList) : Decidable list.IsClosed :=
  inferInstanceAs (Decidable (∀ link ∈ list.links, link.IsClosed))

def refs (list : TypeList) : List TypeRef :=
  list.types.filterMap fun link => TypeRef.ofTarget? link.target

variable {words : Text} {link : NamedLink} {arguments rest : TypeList}

theorem isProper_plain (h : (plain words link rest).IsProper) :
    (∀ mark ∈ typeMarks, ¬ mark <:+: words) ∧ link.IsProper ∧ rest.IsProper := by
  refine ⟨h.texts words (by simp [texts]), h.links link (by simp [links]), ?_, ?_⟩
  · exact fun words hwords => h.texts words (by simp [texts, hwords])
  · exact fun link hlink => h.links link (by simp [links, hlink])

theorem isProper_applied (h : (applied words link arguments rest).IsProper) :
    (∀ mark ∈ typeMarks, ¬ mark <:+: words) ∧ link.IsProper ∧ arguments.IsProper ∧
      rest.IsProper := by
  refine ⟨h.texts words (by simp [texts]), h.links link (by simp [links]), ⟨?_, ?_⟩, ?_, ?_⟩
  · exact fun words hwords => h.texts words (by simp [texts, hwords])
  · exact fun link hlink => h.links link (by simp [links, hlink])
  · exact fun words hwords => h.texts words (by simp [texts, hwords])
  · exact fun link hlink => h.links link (by simp [links, hlink])

theorem isClosed_plain (h : (plain words link rest).IsClosed) : link.IsClosed ∧ rest.IsClosed :=
  List.forall_mem_cons.mp h

theorem isClosed_applied (h : (applied words link arguments rest).IsClosed) :
    link.IsClosed ∧ arguments.IsClosed ∧ rest.IsClosed := by
  obtain ⟨hlink, hrest⟩ := List.forall_mem_cons.mp h
  exact ⟨hlink, List.forall_mem_append.mp hrest⟩

theorem print_applied (more : Text) :
    (applied words link arguments rest).print ++ more =
      words ++ (link.print ++ (bracketOpening ++
        (arguments.print ++ (bracketClosing ++ (rest.print ++ more))))) := by
  simp only [print, List.append_assoc]

theorem types_subset (list : TypeList) : list.types ⊆ list.links := by
  induction list with
  | text words => exact List.Subset.refl []
  | plain words link rest ih => exact List.cons_subset_cons link ih
  | applied words link arguments rest iharguments ih =>
    exact List.cons_subset_cons link (List.subset_append_of_subset_right arguments.links ih)

theorem refs_plain {type : TypeRef} (htype : TypeRef.ofTarget? link.target = some type) :
    (plain words link rest).refs = type :: rest.refs := by
  simp [refs, types, htype]

theorem refs_applied {type : TypeRef} (htype : TypeRef.ofTarget? link.target = some type) :
    (applied words link arguments rest).refs = type :: rest.refs := by
  simp [refs, types, htype]

end TypeList

section Reading

variable {gap rest : Text} {depth : Int}

theorem typeMarks_ne_nil {mark : Text} (h : mark ∈ typeMarks) : mark ≠ [] := by
  have hall : ∀ mark ∈ typeMarks, mark ≠ [] := by decide
  exact hall mark h

theorem bracketBalance_of_passes (h : ∀ mark ∈ typeMarks, Passes mark gap rest) :
    bracketBalance (gap ++ rest) = bracketBalance rest := by
  have hopen : occurrences "&lt;".toList (gap ++ rest) = occurrences "&lt;".toList rest :=
    occurrences_of_passes (by decide) (h bracketOpening (by decide))
  have hclose : occurrences "&gt;".toList (gap ++ rest) = occurrences "&gt;".toList rest :=
    occurrences_of_passes (by decide) (h bracketClosing (by decide))
  rw [bracketBalance, bracketBalance, hopen, hclose]

theorem bracketBalance_nil : bracketBalance [] = 0 := by decide

theorem bracketBalance_opening (rest : Text) :
    bracketBalance (bracketOpening ++ rest) = bracketBalance rest + 1 := by
  have hopen : occurrences "&lt;".toList (bracketOpening ++ rest) =
      occurrences "&lt;".toList rest + 1 := occurrences_mark (by decide) rest
  have hclose : occurrences "&gt;".toList (bracketOpening ++ rest) =
      occurrences "&gt;".toList rest :=
    occurrences_of_passes (by decide) (passes_of_clear (by decide) rest)
  rw [bracketBalance, bracketBalance, hopen, hclose]
  omega

theorem bracketBalance_closing (rest : Text) :
    bracketBalance (bracketClosing ++ rest) = bracketBalance rest - 1 := by
  have hopen : occurrences "&lt;".toList (bracketClosing ++ rest) =
      occurrences "&lt;".toList rest :=
    occurrences_of_passes (by decide) (passes_of_clear (by decide) rest)
  have hclose : occurrences "&gt;".toList (bracketClosing ++ rest) =
      occurrences "&gt;".toList rest + 1 := occurrences_mark (by decide) rest
  rw [bracketBalance, bracketBalance, hopen, hclose]
  omega

def linksAt (depth : Int) (text : Text) : Except ScanError (List ContractLink) :=
  match splitOn linkMark text with
  | [] => .ok []
  | front :: candidates => do contractLinksFrom (← nest depth (bracketBalance front)) candidates

theorem linksAt_congr {text other front front' : Text} {candidates : List Text} {depth depth' : Int}
    (htext : splitOn linkMark text = front :: candidates)
    (hother : splitOn linkMark other = front' :: candidates)
    (h : depth + bracketBalance front = depth' + bracketBalance front') :
    linksAt depth text = linksAt depth' other := by
  rw [linksAt, linksAt, htext, hother]
  simp only [nest, h]

theorem linksAt_gap (h : ∀ mark ∈ typeMarks, Passes mark gap rest) :
    linksAt depth (gap ++ rest) = linksAt depth rest := by
  obtain ⟨front, candidates, hrest, hfront, hwhole⟩ :=
    splitOn_of_passes (by decide) (h linkMark (by decide))
  apply linksAt_congr hwhole hrest
  rw [bracketBalance_of_passes fun mark hmark => (h mark hmark).of_shorter hfront]

theorem linksAt_opening (rest : Text) :
    linksAt depth (bracketOpening ++ rest) = linksAt (depth + 1) rest := by
  have hpass : Passes linkMark bracketOpening rest := passes_of_clear (by decide) rest
  obtain ⟨front, candidates, hrest, hfront, hwhole⟩ := splitOn_of_passes (by decide) hpass
  apply linksAt_congr hwhole hrest
  rw [bracketBalance_opening]
  omega

theorem linksAt_closing (rest : Text) :
    linksAt (depth + 1) (bracketClosing ++ rest) = linksAt depth rest := by
  have hpass : Passes linkMark bracketClosing rest := passes_of_clear (by decide) rest
  obtain ⟨front, candidates, hrest, hfront, hwhole⟩ := splitOn_of_passes (by decide) hpass
  apply linksAt_congr hwhole hrest
  rw [bracketBalance_closing]
  omega

theorem passes_quoted {text : Text} (rest : Text) (h : ∀ mark ∈ typeMarks, ¬ mark <:+: text)
    (hclosed : ¬ linkMark <:+: text ++ ['"']) :
    ∀ mark ∈ typeMarks, Passes mark (text ++ ['"']) rest := by
  intro mark hmark
  have hlast : ∀ mark ∈ typeMarks, '"' ∉ mark.dropLast := by decide
  refine passes_of_last rest ?_ (hlast mark hmark)
  by_cases hlink : mark = linkMark
  · rwa [hlink]
  · have hquote : ∀ mark ∈ typeMarks, mark ≠ linkMark → '"' ∉ mark := by decide
    rw [infix_append_cons_iff (typeMarks_ne_nil hmark) (hquote mark hmark hlink)]
    rintro (hocc | hocc)
    · exact h mark hmark hocc
    · exact typeMarks_ne_nil hmark (List.infix_nil.mp hocc)

theorem NamedLink.passes_body {link : NamedLink} (h : link.IsProper) (hclosed : link.IsClosed)
    (rest : Text) : ∀ mark ∈ typeMarks, Passes mark link.body rest := by
  intro mark hmark
  have hclear : ∀ mark ∈ typeMarks, Clear mark " title=\"".toList ∧ Clear mark ['>'] ∧
      Clear mark "</a>".toList ∧ Apart mark "</a>".toList := by decide
  obtain ⟨htitle, htag, hend, hapart⟩ := hclear mark hmark
  have hname : Passes mark (['>'] ++ (link.name ++ "</a>".toList)) rest := by
    refine (passes_append _ _ _ _).mpr ⟨passes_of_clear htag _, ?_⟩
    exact (passes_append _ _ _ _).mpr
      ⟨passes_of_apart rest (h.name mark hmark) hapart, passes_of_clear hend rest⟩
  have htail : Passes mark (link.title ++ ['"'] ++ ('>' :: (link.name ++ "</a>".toList))) rest :=
    (passes_append _ _ _ _).mpr ⟨passes_quoted _ h.title hclosed.2 mark hmark, hname⟩
  refine (passes_append _ _ _ _).mpr ⟨passes_quoted _ h.target hclosed.1 mark hmark, ?_⟩
  exact (passes_append _ _ _ _).mpr ⟨passes_of_clear htitle _, htail⟩

theorem contractLink_body {link : NamedLink} {type : TypeRef} (h : link.IsProper)
    (htype : TypeRef.ofTarget? link.target = some type) (rest : Text) :
    contractLink (link.body ++ rest) = .type type := by
  have hpass : ∀ more, Passes ['"'] link.target (['"'] ++ more) :=
    fun more => passes_of_head _ rfl h.quoteless
  have hne : link.target ≠ [] := by
    intro hnil
    have hempty : TypeRef.ofTarget? [] = none := by decide +kernel
    rw [hnil, hempty] at htype
    cases htype
  rw [contractLink, NamedLink.body, List.append_assoc,
    breakAt?_of_passes_mark _ (by simp) (hpass _)]
  simp [hne, htype]

theorem linksAt_link {link : NamedLink} {type : TypeRef} (h : link.IsProper)
    (hclosed : link.IsClosed) (htype : TypeRef.ofTarget? link.target = some type) {depth : Nat}
    (hdepth : depth ≤ 2147483647) (rest : Text) :
    linksAt depth (link.print ++ rest) =
      (linksAt depth rest).map fun links => if depth = 0 then .type type :: links else links := by
  have hpass := link.passes_body h hclosed rest
  obtain ⟨front, candidates, hrest, hfront, hwhole⟩ :=
    splitOn_of_passes (by decide) (hpass linkMark (by decide))
  have hbalance : bracketBalance (link.body ++ front) = bracketBalance front :=
    bracketBalance_of_passes fun mark hmark => (hpass mark hmark).of_shorter hfront
  rw [linksAt, NamedLink.print, List.append_assoc, splitOn_eq (by decide),
    breakAt?_mark (by decide)]
  simp only
  rw [hwhole, bracketBalance_nil, linksAt, hrest, Declaration.nest_eq (by omega) (by omega),
    Int.add_zero]
  simp only [bind, Except.bind, contractLinksFrom, hbalance, pure, Except.pure]
  rw [contractLink_body h htype]
  cases nest depth (bracketBalance front) with
  | error e => rfl
  | ok level =>
    simp only
    cases contractLinksFrom level candidates with
    | error e => rfl
    | ok links => simp [Except.map]

theorem linksAt_link_deep (link : NamedLink) {depth : Nat} (hdepth : ¬ depth ≤ 2147483647)
    (rest : Text) : linksAt depth (link.print ++ rest) = .error .depth := by
  rw [linksAt, NamedLink.print, List.append_assoc, splitOn_eq (by decide),
    breakAt?_mark (by decide)]
  simp only
  rw [bracketBalance_nil, nest, if_neg (by omega)]
  rfl

/-- What may follow a list of types: nothing, or the bracket that closes it. -/
def ClosesList (rest : Text) : Prop := rest = [] ∨ bracketClosing <+: rest

theorem passes_words {words : Text} (h : ∀ mark ∈ typeMarks, ¬ mark <:+: words)
    (hrest : ClosesList rest) : ∀ mark ∈ typeMarks, Passes mark words rest := by
  intro mark hmark
  rcases hrest with rfl | ⟨tail, rfl⟩
  · exact passes_end (h mark hmark)
  · have hapart : ∀ mark ∈ typeMarks, Apart mark bracketClosing := by decide
    exact passes_of_apart tail (h mark hmark) (hapart mark hmark)

theorem linksAt_words {words : Text} (h : ∀ mark ∈ typeMarks, ¬ mark <:+: words) (link : NamedLink)
    (rest : Text) :
    linksAt depth (words ++ (link.print ++ rest)) = linksAt depth (link.print ++ rest) := by
  apply linksAt_gap
  intro mark hmark
  have hapart : ∀ mark ∈ typeMarks, Apart mark linkMark := by decide
  rw [NamedLink.print, List.append_assoc]
  exact passes_of_apart _ (h mark hmark) (hapart mark hmark)

/-- Reading a list from inside of `depth` brackets goes on behind it at the same depth, so the
links of type arguments, which are one bracket deeper, are none of the list around them. -/
theorem linksAt_print {list : TypeList} (h : list.IsProper) (hclosed : list.IsClosed) {depth : Nat}
    (hfits : list.Fits depth) {rest : Text} (hrest : ClosesList rest) :
    linksAt depth (list.print ++ rest) =
      (linksAt depth rest).map fun links =>
        if depth = 0 then list.refs.map .type ++ links else links := by
  induction list generalizing depth rest with
  | text words =>
    rw [TypeList.print, linksAt_gap (passes_words (h.texts words (by simp [TypeList.texts])) hrest)]
    cases linksAt depth rest <;> simp [Except.map, TypeList.refs, TypeList.types]
  | plain words link others ih =>
    obtain ⟨hwords, hlink, hothers⟩ := TypeList.isProper_plain h
    obtain ⟨hend, hends⟩ := TypeList.isClosed_plain hclosed
    obtain ⟨type, htype⟩ := Option.isSome_iff_exists.mp hlink.usable
    rw [TypeList.print, List.append_assoc, List.append_assoc, linksAt_words hwords,
      linksAt_link hlink hend htype hfits.1, ih hothers hends hfits.2 hrest,
      TypeList.refs_plain htype]
    cases linksAt depth rest with
    | error e => rfl
    | ok links =>
      simp only [Except.map]
      split <;> rfl
  | applied words link arguments others iharguments ih =>
    obtain ⟨hwords, hlink, harguments, hothers⟩ := TypeList.isProper_applied h
    obtain ⟨hend, hinner, hends⟩ := TypeList.isClosed_applied hclosed
    obtain ⟨type, htype⟩ := Option.isSome_iff_exists.mp hlink.usable
    have hdeeper := iharguments harguments hinner hfits.2.1
      (.inr (List.prefix_append bracketClosing (others.print ++ rest)))
    rw [Int.natCast_add, Int.natCast_one, linksAt_closing, ih hothers hends hfits.2.2 hrest]
      at hdeeper
    rw [TypeList.print_applied, linksAt_words hwords, linksAt_link hlink hend htype hfits.1,
      linksAt_opening, hdeeper, TypeList.refs_applied htype]
    cases linksAt depth rest with
    | error e => rfl
    | ok links =>
      simp only [Except.map]
      split <;> rfl

theorem linksAt_print_deep {list : TypeList} (h : list.IsProper) (hclosed : list.IsClosed)
    {depth : Nat} (hdeep : ¬ list.Fits depth) {rest : Text} (hrest : ClosesList rest) :
    linksAt depth (list.print ++ rest) = .error .depth := by
  induction list generalizing depth rest with
  | text words => exact absurd trivial hdeep
  | plain words link others ih =>
    obtain ⟨hwords, hlink, hothers⟩ := TypeList.isProper_plain h
    obtain ⟨hend, hends⟩ := TypeList.isClosed_plain hclosed
    rw [TypeList.print, List.append_assoc, List.append_assoc, linksAt_words hwords]
    by_cases hdepth : depth ≤ 2147483647
    · obtain ⟨type, htype⟩ := Option.isSome_iff_exists.mp hlink.usable
      rw [linksAt_link hlink hend htype hdepth,
        ih hothers hends (fun hfits => hdeep ⟨hdepth, hfits⟩) hrest]
      rfl
    · exact linksAt_link_deep link hdepth _
  | applied words link arguments others iharguments ih =>
    obtain ⟨hwords, hlink, harguments, hothers⟩ := TypeList.isProper_applied h
    obtain ⟨hend, hinner, hends⟩ := TypeList.isClosed_applied hclosed
    rw [TypeList.print_applied, linksAt_words hwords]
    have hclose : ClosesList (bracketClosing ++ (others.print ++ rest)) :=
      .inr (List.prefix_append bracketClosing _)
    by_cases hdepth : depth ≤ 2147483647
    · obtain ⟨type, htype⟩ := Option.isSome_iff_exists.mp hlink.usable
      rw [linksAt_link hlink hend htype hdepth, linksAt_opening]
      by_cases hfits : arguments.Fits (depth + 1)
      · have hdeeper := linksAt_print harguments hinner hfits hclose
        rw [Int.natCast_add, Int.natCast_one, linksAt_closing,
          ih hothers hends (fun hrest => hdeep ⟨hdepth, hfits, hrest⟩) hrest] at hdeeper
        rw [hdeeper]
        rfl
      · have hdeeper := iharguments harguments hinner hfits hclose
        rw [Int.natCast_add, Int.natCast_one] at hdeeper
        rw [hdeeper]
        rfl
    · exact linksAt_link_deep link hdepth _

end Reading

/-- A written list of interfaces is read as the types outside of all type arguments, in order, and
the outline keeps the first of each name. Only where a link stands inside of more brackets than can
be counted, the list is refused. -/
theorem contractLinks_print {list : TypeList} (h : list.IsProper) (hclosed : list.IsClosed) :
    contractLinks list.print =
        (if list.Fits 0 then .ok (list.refs.map .type) else .error .depth) ∧
      list.types.map (fun link => TypeRef.ofTarget? link.target) = list.refs.map some ∧
      Outline.contractsOf list.refs = Outline.firstOfEach list.refs := by
  refine ⟨?_, ?_, Outline.contractsOf_eq list.refs⟩
  · have hread : contractLinks list.print = linksAt 0 (list.print ++ []) := by
      rw [List.append_nil]
      rfl
    have hnil : linksAt 0 [] = .ok [] := rfl
    rw [hread]
    split
    · rename_i hfits
      have hlist := linksAt_print h hclosed hfits (.inl rfl)
      rw [Int.natCast_zero, hnil] at hlist
      rw [hlist]
      simp [Except.map]
    · rename_i hdeep
      exact linksAt_print_deep h hclosed hdeep (.inl rfl)
  · have husable : ∀ link ∈ list.types, (TypeRef.ofTarget? link.target).isSome :=
      fun link hlink => (h.links link (list.types_subset hlink)).usable
    rw [TypeList.refs]
    generalize list.types = types at husable
    induction types with
    | nil => rfl
    | cons link types ih =>
      obtain ⟨type, htype⟩ := Option.isSome_iff_exists.mp (husable link List.mem_cons_self)
      rw [List.map_cons, List.filterMap_cons, htype,
        ih fun other hother => husable other (List.mem_cons_of_mem link hother)]
      rfl

def sortedList : TypeList :=
  let serializable : NamedLink :=
    ⟨"../../java/io/Serializable.html".toList, "interface in java.io".toList, "Serializable".toList⟩
  .plain [] serializable <|
    .applied ", ".toList ⟨"Comparable.html".toList, "interface in p".toList, "Comparable".toList⟩
      (.applied "? super ".toList ⟨"Map.html".toList, "\"<h2>".toList, "Map".toList⟩
        (.plain "K,".toList serializable (.text "[]".toList)) (.text []))
      (.plain ", ".toList serializable (.text []))

theorem contractLinks_print_sorted :
    contractLinks sortedList.print = .ok
        [.type ⟨"java.io.Serializable".toList, "java_io_Serializable".toList⟩,
          .type ⟨"Comparable".toList, "Comparable".toList⟩,
          .type ⟨"java.io.Serializable".toList, "java_io_Serializable".toList⟩] ∧
      Outline.contractsOf sortedList.refs =
        [⟨"java.io.Serializable".toList, "java_io_Serializable".toList⟩,
          ⟨"Comparable".toList, "Comparable".toList⟩] := by
  have hproper : sortedList.IsProper := ⟨by decide +kernel, by decide +kernel⟩
  obtain ⟨hread, -, hkept⟩ := contractLinks_print hproper (by decide +kernel)
  rw [hread, hkept]
  decide +kernel

def tornList : TypeList :=
  .plain [] ⟨"p/Box<a href=".toList, "class in p".toList, "Box".toList⟩ (.text [])

/-- A target may be free of marks, and yet be torn apart together with the quote behind it. -/
theorem not_contractLinks_print_torn :
    ¬ ∀ list : TypeList, list.IsProper → list.Fits 0 →
      contractLinks list.print = .ok (list.refs.map .type) := by
  intro h
  have hread := h tornList ⟨by decide +kernel, by decide +kernel⟩ (by decide)
  have hfound : contractLinks tornList.print =
      .ok [.malformed, .type ⟨"title=".toList, "title=".toList⟩] := by decide +kernel
  rw [hfound] at hread
  have hlength := congrArg List.length (Except.ok.inj hread)
  exact absurd hlength (by decide +kernel)

end ClassPage

end ClassSkeleton

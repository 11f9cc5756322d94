import ClassSkeleton.Proofs.Declaration.Arguments
import ClassSkeleton.Proofs.Page.Stages

/-!
The two lists of links in the front of a class page as they are written: the chain of parents,
and the interfaces, whose type arguments may hold links of their own. Reading them gives back the
targets in order, and of the interfaces those that stand outside of all type arguments.
-/
namespace ClassSkeleton.ClassPage

open Text Markup

/-- A parent in the inheritance list, up to the end of its target. -/
structure ChainLink where
  lead : Text
  target : Text

namespace ChainLink

def text (link : ChainLink) : Text := link.lead ++ linkMark ++ (link.target ++ ['"'])

structure IsProper (link : ChainLink) : Prop where
  lead : ¬ linkMark <:+: link.lead
  target : '"' ∉ link.target
  usable : (TypeRef.ofTarget? link.target).isSome

end ChainLink

/-- The inheritance list up to its last link, with what stands before it. -/
structure Chain where
  lead : Text
  links : List ChainLink

def Chain.list (chain : Chain) : Text := chain.links.flatMap ChainLink.text

def Chain.parent? (chain : Chain) : Option TypeRef :=
  chain.links.getLast?.bind fun link => TypeRef.ofTarget? link.target

/-- The part of the list behind which the reading goes on. -/
def Chain.read (chain : Chain) : Text :=
  if chain.links.isEmpty then [] else inheritanceMark ++ chain.list

theorem linksFrom_nil {rest : Text} (front : Text) (h : ¬ linkMark <:+: rest) :
    linksFrom (front ++ rest) (width front) = .ok [] := by
  have hnone : locate (front ++ rest) linkMark (width front) = none := by
    rw [locate_width, (breakAt?_eq_none_iff (by decide) rest).mpr h]
    rfl
  rw [linksFrom]
  split
  · rfl
  · rename_i place hplace
    rw [hnone] at hplace
    cases hplace

theorem linksFrom_cons {gap target : Text} (front rest : Text)
    (hgap : Passes linkMark gap (linkMark ++ (target ++ ['"'] ++ rest))) (htarget : '"' ∉ target) :
    linksFrom (front ++ (gap ++ linkMark ++ (target ++ ['"'] ++ rest))) (width front) =
      (linksFrom ((front ++ gap ++ linkMark ++ target ++ ['"']) ++ rest)
        (width (front ++ gap ++ linkMark ++ target ++ ['"']))).map fun links =>
          ⟨target, width (front ++ gap ++ linkMark ++ target ++ ['"'])⟩ :: links := by
  have hregion : front ++ (gap ++ linkMark ++ (target ++ ['"'] ++ rest)) =
      (front ++ gap ++ linkMark) ++ (target ++ (['"'] ++ rest)) := by simp
  have hplace : locate (front ++ (gap ++ linkMark ++ (target ++ ['"'] ++ rest))) linkMark
      (width front) = some (width (front ++ gap)) := locate_of_passes rfl (by decide) hgap
  have hclose : locate (front ++ (gap ++ linkMark ++ (target ++ ['"'] ++ rest))) ['"']
      (width (front ++ gap) + width linkMark) =
      some (width (front ++ gap ++ linkMark ++ target)) := by
    have hpass : Passes ['"'] target (['"'] ++ rest) :=
      passes_of_head _ rfl htarget
    rw [← width_append]
    exact locate_of_passes (by rw [hregion, List.append_assoc target]) (by simp) hpass
  have hcut := cut_width (front ++ gap ++ linkMark) target (['"'] ++ rest)
  rw [← hregion, width_append _ linkMark] at hcut
  have hquote : width (front ++ gap ++ linkMark ++ target) + 1 =
      width (front ++ gap ++ linkMark ++ target ++ ['"']) := by
    rw [width_append _ ['"']]
    rfl
  rw [linksFrom]
  split
  · rename_i hnone
    rw [hplace] at hnone
    cases hnone
  · rename_i place hplace'
    obtain rfl := Option.some.inj (hplace.symm.trans hplace')
    split
    · rename_i hnone
      rw [hclose] at hnone
      cases hnone
    · rename_i close hclose'
      obtain rfl := Option.some.inj (hclose.symm.trans hclose')
      rw [hcut, hquote, hregion]
      simp only [bind, Except.bind, pure, Except.pure, List.append_assoc]
      generalize linksFrom _ _ = result
      cases result <;> rfl

/-- The links of a written chain are read in order, the last one up to the end of its target. -/
theorem linksFrom_chain {links : List ChainLink} (h : ∀ link ∈ links, link.IsProper)
    {gap : Text} (hgap : ¬ linkMark <:+: gap) {lead : Text} (hlead : Clear linkMark lead)
    (front : Text) :
    ∃ read, linksFrom (front ++ (lead ++ (links.flatMap ChainLink.text ++ gap))) (width front) =
        .ok read ∧ read.map (·.target) = links.map (·.target) ∧
      read.getLast?.map (·.after) =
        if links.isEmpty then none
        else some (width (front ++ (lead ++ links.flatMap ChainLink.text))) := by
  induction links generalizing lead front with
  | nil =>
    refine ⟨[], ?_, rfl, rfl⟩
    apply linksFrom_nil
    rw [List.flatMap_nil, List.nil_append]
    apply not_infix_of_passes (by decide)
    rw [passes_append]
    exact ⟨passes_of_clear hlead _, passes_end hgap⟩
  | cons link links ih =>
    have hlink := h link List.mem_cons_self
    have hempty : Clear linkMark [] := by decide
    obtain ⟨read, hread, htargets, hlast⟩ := ih
      (fun other hmem => h other (List.mem_cons_of_mem link hmem)) hempty
      (front ++ (lead ++ link.lead) ++ linkMark ++ link.target ++ ['"'])
    have hpass : Passes linkMark (lead ++ link.lead) (linkMark ++ (link.target ++ ['"'] ++
        (links.flatMap ChainLink.text ++ gap))) := by
      rw [passes_append]
      exact ⟨passes_of_clear hlead _, passes_of_apart _ hlink.lead (by decide)⟩
    have hcons := linksFrom_cons front (links.flatMap ChainLink.text ++ gap) hpass hlink.target
    rw [List.nil_append] at hread
    rw [hread] at hcons
    have htext : front ++ (lead ++ ((link :: links).flatMap ChainLink.text ++ gap)) =
        front ++ (lead ++ link.lead ++ linkMark ++ (link.target ++ ['"'] ++
          (links.flatMap ChainLink.text ++ gap))) := by
      simp [ChainLink.text]
    rw [htext, hcons]
    refine ⟨_, rfl, by rw [List.map_cons, List.map_cons, htargets], ?_⟩
    have hend : front ++ (lead ++ (link :: links).flatMap ChainLink.text) =
        (front ++ (lead ++ link.lead) ++ linkMark ++ link.target ++ ['"']) ++
          ([] ++ links.flatMap ChainLink.text) := by
      simp [ChainLink.text]
    rw [hend, if_neg (by simp)]
    cases links with
    | nil =>
      obtain rfl : read = [] := by simpa using htargets
      simp
    | cons second links =>
      have hne : read ≠ [] := by
        rintro rfl
        simp at htargets
      rw [if_neg (by simp)] at hlast
      obtain ⟨first, rest, rfl⟩ := List.exists_cons_of_ne_nil hne
      rw [List.getLast?_cons_cons]
      exact hlast

def InRange (depth : Int) : Prop := -2147483648 ≤ depth ∧ depth ≤ 2147483647

instance (depth : Int) : Decidable (InRange depth) :=
  inferInstanceAs (Decidable (-2147483648 ≤ depth ∧ depth ≤ 2147483647))

/-- Links inside of type arguments that are open to `depth` and closed behind the last link. -/
def Enclosed (depth : Int) : List Text → Prop
  | [] => depth = 0
  | candidate :: candidates =>
    depth ≠ 0 ∧ InRange (depth + bracketBalance candidate) ∧
      Enclosed (depth + bracketBalance candidate) candidates

instance decidableEnclosed : (depth : Int) → (candidates : List Text) →
    Decidable (Enclosed depth candidates)
  | depth, [] => inferInstanceAs (Decidable (depth = 0))
  | depth, candidate :: candidates =>
    have := decidableEnclosed (depth + bracketBalance candidate) candidates
    inferInstanceAs (Decidable (depth ≠ 0 ∧ InRange (depth + bracketBalance candidate) ∧
      Enclosed (depth + bracketBalance candidate) candidates))

/-- An interface as it is written: the target of its link, what follows the target, and what
follows the head of each link in its type arguments. -/
structure Contract where
  target : Text
  rest : Text
  arguments : List Text

namespace Contract

def own (contract : Contract) : Text := contract.target ++ '"' :: contract.rest

/-- What follows the heads of the links. -/
def candidates (contract : Contract) : List Text := contract.own :: contract.arguments

structure IsProper (contract : Contract) : Prop where
  target : '"' ∉ contract.target
  usable : (TypeRef.ofTarget? contract.target).isSome
  links : ∀ candidate ∈ contract.candidates, ¬ linkMark <:+: candidate
  range : InRange (bracketBalance contract.own)
  enclosed : Enclosed (bracketBalance contract.own) contract.arguments

end Contract

/-- The list of interfaces behind its label, with what stands up to the declaration. -/
structure ContractList where
  gap : Text
  lead : Text
  contracts : List Contract
  after : Text

namespace ContractList

def inner (list : ContractList) : Text :=
  list.lead ++ (list.contracts.flatMap Contract.candidates).flatMap (linkMark ++ ·)

def text (list : ContractList) : Text :=
  interfacesMark ++ (list.gap ++ listOpening ++ (list.inner ++ listClosing ++ list.after))

structure IsProper (list : ContractList) : Prop where
  opening : ¬ listOpening <:+: list.gap
  closing : ¬ listClosing <:+: list.inner
  lead : ¬ linkMark <:+: list.lead
  level : bracketBalance list.lead = 0
  contracts : ∀ contract ∈ list.contracts, contract.IsProper
  after : ¬ declarationOpening <:+: list.after

end ContractList

theorem contractLinksFrom_enclosed {depth : Int} {arguments : List Text}
    (h : Enclosed depth arguments) (candidates : List Text) :
    contractLinksFrom depth (arguments ++ candidates) = contractLinksFrom 0 candidates := by
  induction arguments generalizing depth with
  | nil =>
    obtain rfl : depth = 0 := h
    rfl
  | cons candidate arguments ih =>
    obtain ⟨hdepth, ⟨hlow, hhigh⟩, htail⟩ := h
    rw [List.cons_append, contractLinksFrom, Declaration.nest_eq hlow hhigh]
    simp only [bind, Except.bind, pure, Except.pure]
    rw [ih htail]
    simp only [hdepth, if_false]
    cases contractLinksFrom 0 candidates <;> rfl

theorem contractLink_own {contract : Contract} (h : contract.IsProper) :
    ∃ type, TypeRef.ofTarget? contract.target = some type ∧
      contractLink contract.own = .type type := by
  obtain ⟨type, htype⟩ := Option.isSome_iff_exists.mp h.usable
  refine ⟨type, htype, ?_⟩
  have hpass : Passes ['"'] contract.target (['"'] ++ contract.rest) :=
    passes_of_head _ rfl h.target
  have hbreak := breakAt?_of_passes_mark contract.rest (by simp) hpass
  rw [List.append_assoc, List.singleton_append] at hbreak
  have hne : contract.target ≠ [] := by
    intro hnil
    have hempty : TypeRef.ofTarget? [] = none := by decide +kernel
    rw [hnil, hempty] at htype
    cases htype
  rw [contractLink, Contract.own, hbreak]
  simp [hne, htype]

theorem contractLinksFrom_contracts {contracts : List Contract}
    (h : ∀ contract ∈ contracts, contract.IsProper) :
    ∃ links, contractLinksFrom 0 (contracts.flatMap Contract.candidates) = .ok links ∧
      links.filterMap ContractLink.ref? =
        contracts.filterMap fun contract => TypeRef.ofTarget? contract.target := by
  induction contracts with
  | nil => exact ⟨[], rfl, rfl⟩
  | cons contract contracts ih =>
    have hcontract := h contract List.mem_cons_self
    obtain ⟨links, hlinks, hrefs⟩ := ih fun other hmem => h other (List.mem_cons_of_mem _ hmem)
    obtain ⟨type, htype, hown⟩ := contractLink_own hcontract
    refine ⟨.type type :: links, ?_, ?_⟩
    · rw [List.flatMap_cons, Contract.candidates, List.cons_append, contractLinksFrom,
        Declaration.nest_eq (by have := hcontract.range.1; omega)
          (by have := hcontract.range.2; omega), Int.zero_add]
      simp only [bind, Except.bind, pure, Except.pure]
      rw [contractLinksFrom_enclosed hcontract.enclosed, hlinks]
      simp only [if_true, hown]
    · rw [List.filterMap_cons, List.filterMap_cons, htype, hrefs]
      rfl

theorem contractLinks_inner {list : ContractList} (h : list.IsProper) :
    ∃ links, contractLinks list.inner = .ok links ∧
      links.filterMap ContractLink.ref? =
        list.contracts.filterMap fun contract => TypeRef.ofTarget? contract.target := by
  obtain ⟨links, hlinks, hrefs⟩ := contractLinksFrom_contracts h.contracts
  have hsplit : splitOn linkMark list.inner =
      list.lead :: list.contracts.flatMap Contract.candidates := by
    apply splitOn_flatMap (by decide) (by decide) h.lead
    intro candidate hmem
    obtain ⟨contract, hcontract, hcandidate⟩ := List.mem_flatMap.mp hmem
    exact (h.contracts contract hcontract).links candidate hcandidate
  refine ⟨links, ?_, hrefs⟩
  rw [contractLinks, hsplit]
  simp only
  rw [h.level, Declaration.nest_eq (by decide) (by decide)]
  exact hlinks

end ClassSkeleton.ClassPage

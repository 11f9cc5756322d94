import ClassSkeleton.Proofs.Bytewise.Markup
import ClassSkeleton.Proofs.Declaration.Pieces

/-!
Declaration fragments and link targets read by byte offsets. The items of a fragment are told apart
at an offset into the whole fragment, and each of them says at which offset the next one begins:
past a tag, past the closing tag of a link, or past an entity or a character of its own width.
-/
namespace ClassSkeleton

open Text Markup Declaration

namespace Bytewise

theorem locate_past (before mark rest other : Text) :
    locate (before ++ mark ++ rest) other (width before + width mark) =
      (breakAt? other rest).map fun parts => width (before ++ mark ++ parts.1) := by
  rw [← width_append, locate_width]

def withoutHost? (target : Text) : Except ScanError (Option Text) :=
  match locate target "://".toList 0 with
  | none => .ok (some target)
  | some scheme => do
    let first := scheme + width "://".toList
    match locate (← cutFrom target first) ['/'] 0 with
    | none => return none
    | some host => return some (← cutFrom target (first + host + width ['/']))

theorem withoutHost?_eq (target : Text) :
    withoutHost? target = .ok (TypeRef.withoutHost? target) := by
  rw [withoutHost?, TypeRef.withoutHost?, locate_zero]
  cases hscheme : breakAt? "://".toList target with
  | none => rfl
  | some parts =>
    obtain ⟨front, rest⟩ := parts
    obtain rfl := eq_of_breakAt? hscheme
    simp only [Option.map_some, ← width_append, cutFrom_width, ok_bind, locate_zero]
    cases hhost : breakAt? ['/'] rest with
    | none => rfl
    | some parts =>
      obtain ⟨host, path⟩ := parts
      obtain rfl := eq_of_breakAt? hhost
      have hpath := cutFrom_width (front ++ "://".toList ++ (host ++ ['/'])) path
      rw [List.append_assoc] at hpath
      simp only [Option.map_some, ← width_append]
      rw [List.append_assoc _ host, hpath]
      rfl

def ofTarget? (target : Text) : Except ScanError (Option TypeRef) := do
  return (← withoutHost? (trim target)).bind fun path =>
    match TypeRef.targetSegments path with
    | [] => none
    | segments => some (TypeRef.ofDotted (join ['.'] segments))

theorem ofTarget?_eq (target : Text) : ofTarget? target = .ok (TypeRef.ofTarget? target) := by
  rw [ofTarget?, withoutHost?_eq]
  rfl

def ofFragment? (fragment : Text) : Except ScanError (Option TypeRef) :=
  match locate fragment "href=\"".toList 0 with
  | none => ofTarget? fragment
  | some place =>
    let first := place + width "href=\"".toList
    match locate fragment ['"'] first with
    | none => .ok none
    | some last => do ofTarget? (← cut fragment first last)

theorem ofFragment?_eq (fragment : Text) :
    ofFragment? fragment = .ok (TypeRef.ofFragment? fragment) := by
  rw [ofFragment?, TypeRef.ofFragment?, locate_zero]
  cases hlink : breakAt? "href=\"".toList fragment with
  | none => exact ofTarget?_eq fragment
  | some parts =>
    obtain ⟨front, rest⟩ := parts
    obtain rfl := eq_of_breakAt? hlink
    simp only [Option.map_some, locate_past]
    cases hquote : breakAt? ['"'] rest with
    | none => rfl
    | some parts =>
      obtain ⟨target, behind⟩ := parts
      obtain rfl := eq_of_breakAt? hquote
      have hcut := cut_width (front ++ "href=\"".toList) target (['"'] ++ behind)
      rw [width_append front, ← List.append_assoc target] at hcut
      simp only [Option.map_some, hcut, Option.bind_some]
      exact ofTarget?_eq target

def afterOpen (raw : Text) (start : Nat) : Except ScanError (Item × Nat) := do
  let rest ← cutFrom raw start
  match locate rest ['>'] 0 with
  | none => return (.remainder rest, width raw)
  | some closed => do
    let tag ← cut rest 0 (closed + width ['>'])
    let behind := start + closed + width ['>']
    if Item.isLinkTag tag then
      match locate raw "</a>".toList behind with
      | none => return (.link tag none, behind)
      | some close =>
        return (.link tag (some (← cut raw behind close)), close + width "</a>".toList)
    else return (.tag tag, behind)

/-- The item at byte `start`, where `c` stands before `rest`, and where the next one begins. -/
def next (raw : Text) (start : Nat) (c : Char) (rest : Text) : Except ScanError (Item × Nat) :=
  if c = '<' then afterOpen raw start
  else if "&lt;".toList.isPrefixOf (c :: rest) then
    .ok (.punctuation '<', start + width "&lt;".toList)
  else if "&gt;".toList.isPrefixOf (c :: rest) then
    .ok (.punctuation '>', start + width "&gt;".toList)
  else if "&nbsp;".toList.isPrefixOf (c :: rest) then .ok (.blank, start + width "&nbsp;".toList)
  else if isBlank c then .ok (.blank, start + c.utf8Size)
  else if Item.isPunctuation c then .ok (.punctuation c, start + c.utf8Size)
  else .ok (.letter c, start + c.utf8Size)

theorem afterOpen_eq (front rest : Text) :
    ∃ inside, rest = inside ++ (Item.afterOpen rest).2 ∧
      afterOpen (front ++ '<' :: rest) (width front) =
        .ok ((Item.afterOpen rest).1, width (front ++ '<' :: inside)) := by
  rw [afterOpen, cutFrom_width]
  simp only [ok_bind, locate_zero, Item.afterOpen, breakAt?_cons_of_ne (by decide : '>' ≠ '<')]
  cases htag : breakAt? ['>'] rest with
  | none => exact ⟨rest, by simp, rfl⟩
  | some parts =>
    obtain ⟨inside, behind⟩ := parts
    obtain rfl := eq_of_breakAt? htag
    have hraw : front ++ '<' :: (inside ++ ['>'] ++ behind) =
        front ++ ('<' :: inside ++ ['>']) ++ behind := by simp
    have hcut : cut ('<' :: (inside ++ ['>'] ++ behind)) 0 (width ('<' :: inside) + width ['>']) =
        .ok ('<' :: inside ++ ['>']) := by
      rw [← width_append]
      exact cut_to_width ('<' :: inside ++ ['>']) behind
    simp only [Option.map_some, hcut, ok_bind]
    rw [hraw, Nat.add_assoc, ← width_append ('<' :: inside), ← width_append front, locate_width]
    split
    · cases hclose : breakAt? "</a>".toList behind with
      | none =>
        exact ⟨inside ++ ['>'], rfl, rfl⟩
      | some parts =>
        obtain ⟨anchor, after⟩ := parts
        obtain rfl := eq_of_breakAt? hclose
        refine ⟨inside ++ ['>'] ++ (anchor ++ "</a>".toList), by simp, ?_⟩
        simp only [Option.map_some]
        rw [List.append_assoc anchor, cut_width, ← width_append]
        simp
    · exact ⟨inside ++ ['>'], rfl, rfl⟩

theorem isPrefixOf_eq_isSome (mark text : Text) :
    mark.isPrefixOf text = (dropMark? mark text).isSome := by
  rw [dropMark?]
  split
  · assumption
  · exact Bool.eq_false_iff.mpr ‹_›

/-- At a seam an item is the one of the part behind it, and the next one begins where it ends. -/
theorem next_eq (front : Text) (c : Char) (rest : Text) :
    ∃ item, c :: rest = item ++ (Item.next c rest).2 ∧ item ≠ [] ∧
      next (front ++ c :: rest) (width front) c rest =
        .ok ((Item.next c rest).1, width (front ++ item)) := by
  rw [next, Item.next]
  by_cases hopen : c = '<'
  · subst hopen
    obtain ⟨inside, hrest, hafter⟩ := afterOpen_eq front rest
    rw [if_pos rfl, if_pos rfl]
    exact ⟨'<' :: inside, by rw [List.cons_append, ← hrest], by simp, hafter⟩
  · simp only [if_neg hopen, isPrefixOf_eq_isSome, ← width_append]
    cases hlt : dropMark? "&lt;".toList (c :: rest) with
    | some after => exact ⟨"&lt;".toList, eq_of_dropMark? hlt, by decide, rfl⟩
    | none =>
      cases hgt : dropMark? "&gt;".toList (c :: rest) with
      | some after => exact ⟨"&gt;".toList, eq_of_dropMark? hgt, by decide, rfl⟩
      | none =>
        cases hspace : dropMark? "&nbsp;".toList (c :: rest) with
        | some after => exact ⟨"&nbsp;".toList, eq_of_dropMark? hspace, by decide, rfl⟩
        | none =>
          -- What is left takes up one character.
          refine ⟨[c], ?_, by simp, ?_⟩
          · simp only []
            split
            · rfl
            · split <;> rfl
          · simp only [Option.isSome_none, Bool.false_eq_true, if_false, width_append, width_cons,
              width_nil, Nat.add_zero]
            split
            · rfl
            · split <;> rfl

theorem lt_of_next {raw rest : Text} {start behind : Nat} {c : Char} {item : Item}
    (hrest : cutFrom raw start = .ok (c :: rest))
    (h : next raw start c rest = .ok (item, behind)) : start < behind ∧ start < width raw := by
  obtain ⟨front, rfl, rfl⟩ := eq_of_cutFrom hrest
  obtain ⟨text, -, hne, hnext⟩ := next_eq front c rest
  rw [hnext] at h
  cases h
  have hpos : 0 < width text := Nat.pos_of_ne_zero fun hzero => hne (eq_nil_of_width hzero)
  have hc := Char.utf8Size_pos c
  simp only [width_append, width_cons]
  omega

def itemsFrom (raw : Text) (start : Nat) : Except ScanError (List Item) :=
  match _ : cutFrom raw start with
  | .error e => .error e
  | .ok [] => .ok []
  | .ok (c :: rest) =>
    match _ : next raw start c rest with
    | .error e => .error e
    | .ok (item, behind) => do return item :: (← itemsFrom raw behind)
termination_by width raw - start
decreasing_by
  have hlt := lt_of_next ‹cutFrom raw start = .ok (c :: rest)›
    ‹next raw start c rest = .ok (item, behind)›
  omega

section Step

variable {raw rest : Text} {start behind : Nat} {c : Char} {item : Item}

theorem itemsFrom_end (h : cutFrom raw start = .ok []) : itemsFrom raw start = .ok [] := by
  rw [itemsFrom]
  split
  · rename_i e herror
    rw [h] at herror
    cases herror
  · rfl
  · rename_i d tail htail
    rw [h] at htail
    cases htail

theorem itemsFrom_step (h : cutFrom raw start = .ok (c :: rest))
    (hnext : next raw start c rest = .ok (item, behind)) :
    itemsFrom raw start = (itemsFrom raw behind).map (item :: ·) := by
  rw [itemsFrom]
  split
  · rename_i e herror
    rw [h] at herror
    cases herror
  · rename_i hnil
    rw [h] at hnil
    cases hnil
  · rename_i d tail htail
    rw [h] at htail
    cases htail
    split
    · rename_i e herror
      rw [hnext] at herror
      cases herror
    · rename_i found after hfound
      rw [hnext] at hfound
      cases hfound
      cases itemsFrom raw behind <;> rfl

end Step

theorem itemsFrom_eq (front rest : Text) :
    itemsFrom (front ++ rest) (width front) = .ok (items rest) := by
  fun_induction items rest generalizing front with
  | case1 => exact itemsFrom_end (cutFrom_width front [])
  | case2 c rest ih =>
    obtain ⟨text, htext, -, hnext⟩ := next_eq front c rest
    have hrest := ih (front ++ text)
    rw [List.append_assoc, ← htext] at hrest
    rw [itemsFrom_step (cutFrom_width front (c :: rest)) hnext, hrest]
    rfl

def linkName? (tag : Text) (anchor : Option Text) : Except ScanError (Option Text) := do
  if Text.contains "title=\"type parameter in".toList tag then
    match ← plainText (anchor.getD []) with
    | [] => return none
    | name => return some name
  else
    return (← ofFragment? tag).map fun type =>
      if Text.contains "title=\"annotation in".toList tag then '@' :: type.ident else type.ident

theorem linkName?_eq (tag : Text) (anchor : Option Text) :
    linkName? tag anchor = .ok (Declaration.linkName? tag anchor) := by
  rw [linkName?, Declaration.linkName?]
  split
  · rw [plainText_eq, ok_bind]
    cases Markup.plainText (anchor.getD []) <;> rfl
  · rw [ofFragment?_eq]
    rfl

def gather (word : Text) (spaced : Bool) : List Item → Except ScanError (List Token)
  | [] => .ok (closeWord word spaced).1
  | item :: items =>
    let closed := closeWord word spaced
    match item with
    | .letter c => gather (word ++ [c]) spaced items
    | .punctuation c => do
      return closed.1 ++ ⟨.mark c, closed.2⟩ :: (← gather [] false items)
    | .blank => do return closed.1 ++ (← gather [] true items)
    | .tag _ => do return closed.1 ++ (← gather [] closed.2 items)
    | .link tag anchor => do
      match ← linkName? tag anchor with
      | none => return closed.1 ++ (← gather [] closed.2 items)
      | some name => return closed.1 ++ ⟨.name name, closed.2⟩ :: (← gather [] false items)
    | .remainder text => do return closed.1 ++ (← gather text closed.2 items)

theorem gather_eq (word : Text) (spaced : Bool) (items : List Item) :
    gather word spaced items = .ok (Declaration.gather word spaced items) := by
  induction items generalizing word spaced with
  | nil => rfl
  | cons item items ih =>
    cases item with
    | letter c => exact ih _ _
    | punctuation c =>
      rw [gather, ih]
      rfl
    | blank =>
      rw [gather, ih]
      rfl
    | tag text =>
      rw [gather, ih]
      rfl
    | remainder text =>
      rw [gather, ih]
      rfl
    | link tag anchor =>
      rw [gather, Declaration.gather, linkName?_eq, ok_bind]
      cases Declaration.linkName? tag anchor with
      | none =>
        simp only [ih]
        rfl
      | some name =>
        simp only [ih]
        rfl

def visibility (fragment : Text) : Except ScanError Visibility := do
  return visibilityOfWords (splitOn [' '] (← plainText fragment))

theorem visibility_eq (fragment : Text) :
    visibility fragment = .ok (Declaration.visibility fragment) := by
  rw [visibility, plainText_eq]
  rfl

def signature (self fragment : Text) : Except ScanError (Except Refusal Text) := do
  if Text.contains "Deprecated".toList fragment then return .error .deprecated
  else if (← visibility fragment) = .priv then return .error .priv
  else
    let tokens ← gather [] false (← itemsFrom fragment 0)
    return .ok (render (tokens.map (Token.holdSelf self)))

theorem signature_eq (self fragment : Text) :
    signature self fragment = .ok (Declaration.signature self fragment) := by
  have hitems : itemsFrom fragment 0 = .ok (items fragment) := itemsFrom_eq [] fragment
  rw [signature, Declaration.signature, visibility_eq, hitems]
  simp only [ok_bind, gather_eq]
  split
  · rfl
  · split <;> rfl

def outerArguments? (heading : Text) : Except ScanError (Option Text) :=
  match locate heading ['<'] 0, lastPlace? '>' heading with
  | some opened, some closed =>
    if opened < closed then do return some (← cut heading (opened + width ['<']) closed)
    else .ok none
  | _, _ => .ok none

theorem outerArguments?_eq (heading : Text) :
    outerArguments? heading = .ok (Declaration.outerArguments? heading) := by
  rw [outerArguments?, Declaration.outerArguments?, locate_zero]
  cases hopen : breakAt? ['<'] heading with
  | none => rfl
  | some parts =>
    obtain ⟨front, rest⟩ := parts
    obtain ⟨rfl, hfront⟩ := breakAt?_char hopen
    simp only [Option.map_some]
    by_cases hclose : '>' ∈ rest
    · obtain ⟨inner, back, rfl, hback⟩ := exists_last hclose
      have hlast : lastPlace? '>' (front ++ '<' :: (inner ++ '>' :: back)) =
          some (width (front ++ '<' :: inner)) := by
        have hplace := lastPlace?_append (front ++ '<' :: inner) hback
        rwa [List.append_assoc, List.cons_append] at hplace
      have hcut : cut (front ++ '<' :: (inner ++ '>' :: back)) (width front + width ['<'])
          (width (front ++ '<' :: inner)) = .ok inner := by
        have hcut := cut_width (front ++ ['<']) inner ('>' :: back)
        rw [width_append front] at hcut
        simpa only [List.append_assoc, List.singleton_append] using hcut
      have hlt : width front < width (front ++ '<' :: inner) := by
        have hpos := Char.utf8Size_pos '<'
        rw [width_append, width_cons]
        omega
      have htail : (inner ++ '>' :: back).reverse.dropWhile (· != '>') = '>' :: inner.reverse := by
        have hskip : ∀ c ∈ back.reverse, (c != '>') = true := fun c hc =>
          bne_iff_ne.mpr fun heq => hback (heq ▸ List.mem_reverse.mp hc)
        rw [List.reverse_append, List.reverse_cons, List.append_assoc,
          List.dropWhile_append_of_pos hskip]
        rfl
      simp only [hlast, if_pos hlt, hcut, ok_bind, if_pos hclose, htail, List.tail_cons,
        List.reverse_reverse]
      rfl
    · -- The last `>`, if there is one, stands before the first `<`.
      simp only [if_neg hclose]
      by_cases hearly : '>' ∈ front
      · obtain ⟨lead, back, rfl, hback⟩ := exists_last hearly
        have hlast : lastPlace? '>' (lead ++ '>' :: back ++ '<' :: rest) = some (width lead) := by
          have hrest : '>' ∉ back ++ '<' :: rest := by simp [hback, hclose]
          have hplace := lastPlace?_append lead hrest
          rwa [← List.cons_append, ← List.append_assoc] at hplace
        have hle : ¬ width (lead ++ '>' :: back) < width lead := by
          rw [width_append]
          omega
        simp only [hlast, if_neg hle]
      · rw [lastPlace?_eq_none (by simp [hearly, hclose])]

end Bytewise

end ClassSkeleton

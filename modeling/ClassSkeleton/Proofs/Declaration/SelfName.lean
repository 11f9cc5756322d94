import ClassSkeleton.Proofs.Declaration.Annotation

/-!
The name of the enclosing type in a signature. It is recognized token by token, before the tokens
are put on one line, but filled in by exchanging the placeholder on the line. Both agree if the
declaration has no dollar sign: the placeholder is the only text of the line that begins with one,
so it is found where it has been put and nowhere else, whatever the tokens beside it are.
-/
namespace ClassSkeleton

namespace Declaration

open Text

/-- The lexeme with another name for the enclosing type, wherever it is a plain word. -/
def Lexeme.callSelf (self name : Text) : Lexeme → Lexeme
  | .word text => .word (if text = self then name else text)
  | lexeme => lexeme

def Token.callSelf (self name : Text) (token : Token) : Token :=
  { token with lexeme := token.lexeme.callSelf self name }

variable {self : Text} {token : Token}

theorem holdSelf_eq_callSelf (self : Text) :
    Token.holdSelf self = Token.callSelf self placeholder := by
  funext token
  obtain ⟨lexeme, spaced⟩ := token
  cases lexeme <;> rfl

theorem callSelf_of_ne (name : Text) (h : token.lexeme ≠ .word self) :
    token.callSelf self name = token := by
  obtain ⟨lexeme, spaced⟩ := token
  cases lexeme with
  | word text =>
    have htext : text ≠ self := fun hself => h (congrArg Lexeme.word hself)
    rw [Token.callSelf, Lexeme.callSelf, if_neg htext]
  | name text => rfl
  | mark c => rfl

theorem callSelf_of_eq (name : Text) (h : token.lexeme = .word self) :
    token.callSelf self name = ⟨.word name, token.spaced⟩ := by
  rw [Token.callSelf, h, Lexeme.callSelf, if_pos rfl]

theorem isGlued_callSelf (self name : Text) (previous : Option Lexeme) (token : Token) :
    isGlued (previous.map (Lexeme.callSelf self name)) (token.callSelf self name) =
      isGlued previous token := by
  obtain ⟨lexeme, spaced⟩ := token
  cases previous with
  | none => rfl
  | some before => cases before <;> cases lexeme <;> rfl

theorem passes_placeholder {front : Text} (h : '$' ∉ front) (rest : Text) :
    Passes placeholder front rest :=
  passes_of_head rest rfl h

def spacedText (previous : Option Lexeme) (token : Token) : Text :=
  if isGlued previous token then token.lexeme.text else ' ' :: token.lexeme.text

theorem spacedText_callSelf (self name : Text) (previous : Option Lexeme) (token : Token) :
    spacedText (previous.map (Lexeme.callSelf self name)) (token.callSelf self name) =
      (if isGlued previous token then [] else [' ']) ++ (token.callSelf self name).lexeme.text := by
  rw [spacedText, isGlued_callSelf]
  split <;> rfl

/-- At a token the placeholder is found if it has been put there, and else not. -/
theorem replace_spacedText (ident : Text) (previous : Option Lexeme)
    (htoken : '$' ∉ token.lexeme.text) (rest : Text) :
    replace placeholder ident
        (spacedText (previous.map (Lexeme.callSelf self placeholder))
          (token.callSelf self placeholder) ++ rest) =
      spacedText (previous.map (Lexeme.callSelf self ident)) (token.callSelf self ident) ++
        replace placeholder ident rest := by
  have hspace : ∀ text, replace placeholder ident
      ((if isGlued previous token then [] else [' ']) ++ text) =
        (if isGlued previous token then [] else [' ']) ++ replace placeholder ident text :=
    fun text => replace_of_passes (by decide) ident
      (passes_placeholder (by split <;> decide) text)
  rw [spacedText_callSelf, spacedText_callSelf, List.append_assoc, hspace, List.append_assoc]
  congr 1
  by_cases hself : token.lexeme = .word self
  · rw [callSelf_of_eq placeholder hself, callSelf_of_eq ident hself]
    exact replace_mark (by decide) ident rest
  · rw [callSelf_of_ne placeholder hself, callSelf_of_ne ident hself]
    exact replace_of_passes (by decide) ident (passes_placeholder htoken rest)

theorem occurrences_spacedText (previous : Option Lexeme) (htoken : '$' ∉ token.lexeme.text)
    (rest : Text) :
    occurrences placeholder
        (spacedText (previous.map (Lexeme.callSelf self placeholder))
          (token.callSelf self placeholder) ++ rest) =
      occurrences placeholder rest + if token.lexeme = .word self then 1 else 0 := by
  have hspace : ∀ text, occurrences placeholder
      ((if isGlued previous token then [] else [' ']) ++ text) = occurrences placeholder text :=
    fun text => occurrences_of_passes (by decide) (passes_placeholder (by split <;> decide) text)
  rw [spacedText_callSelf, List.append_assoc, hspace]
  by_cases hself : token.lexeme = .word self
  · rw [callSelf_of_eq placeholder hself, if_pos hself]
    exact occurrences_mark (by decide) rest
  · rw [callSelf_of_ne placeholder hself, if_neg hself]
    exact occurrences_of_passes (by decide) (passes_placeholder htoken rest)

section Line

variable {line : List Token} (hline : ∀ token ∈ line, '$' ∉ token.lexeme.text)

include hline

theorem replace_renderFrom (self ident : Text) (previous : Option Lexeme) :
    replace placeholder ident (renderFrom (previous.map (Lexeme.callSelf self placeholder))
        (line.map (Token.callSelf self placeholder))) =
      renderFrom (previous.map (Lexeme.callSelf self ident))
        (line.map (Token.callSelf self ident)) := by
  induction line generalizing previous with
  | nil => rfl
  | cons token line ih =>
    obtain ⟨htoken, hrest⟩ := List.forall_mem_cons.mp hline
    have hthen := ih hrest (some token.lexeme)
    rw [List.map_cons, List.map_cons, renderFrom, renderFrom]
    exact (replace_spacedText ident previous htoken _).trans (congrArg _ hthen)

/-- The placeholder stands on the line once for each plain word that is the name of the type. -/
theorem occurrences_renderFrom (self : Text) (previous : Option Lexeme) :
    occurrences placeholder (renderFrom (previous.map (Lexeme.callSelf self placeholder))
        (line.map (Token.callSelf self placeholder))) =
      line.countP fun token => token.lexeme = .word self := by
  induction line generalizing previous with
  | nil => rfl
  | cons token line ih =>
    obtain ⟨htoken, hrest⟩ := List.forall_mem_cons.mp hline
    have hthen := ih hrest (some token.lexeme)
    have hone : (if decide (token.lexeme = .word self) = true then 1 else 0) =
        if token.lexeme = .word self then 1 else 0 := by simp only [decide_eq_true_eq]
    rw [List.map_cons, renderFrom, List.countP_cons, hone, ← hthen]
    exact occurrences_spacedText previous htoken _

end Line

/-- Filling in the placeholder of a signature renames the plain words that are the name of the
type and nothing else: every other token stays, and so does the spacing. -/
theorem resolveSelf_signature {self fragment line : Text} (ident : Text) (hplain : '$' ∉ fragment)
    (hline : signature self fragment = .ok line) :
    resolveSelf ident line =
        render ((tokens fragment).map (Token.callSelf self ident)) ∧
      (∀ token, token.lexeme ≠ .word self → Token.callSelf self ident token = token) ∧
      occurrences placeholder line =
        (tokens fragment).countP fun token => token.lexeme = .word self := by
  have htokens : ∀ token ∈ tokens fragment, '$' ∉ token.lexeme.text :=
    fun token htoken hc =>
      (mem_tokens htoken hc).elim (fun hspelled => absurd hspelled (by decide)) hplain
  obtain ⟨-, -, rfl⟩ := signature_eq_ok_iff.mp hline
  rw [holdSelf_eq_callSelf]
  exact ⟨replace_renderFrom htokens self ident none, fun token => callSelf_of_ne ident,
    occurrences_renderFrom htokens self none⟩

def selfish : Text :=
  ("public&nbsp;Box<b>Box</b>(Box[]&nbsp;a,BoxOf b," ++
    "<a href=\"Box.html\" title=\"type parameter in Box\">Box</a>&lt;Box&gt;)").toList

theorem resolveSelf_signature_glued :
    '$' ∉ selfish ∧
      signature "Box".toList selfish =
        .ok "public $Self$Self($Self[] a,BoxOf b,Box<$Self>)".toList ∧
      resolveSelf "p_Box".toList "public $Self$Self($Self[] a,BoxOf b,Box<$Self>)".toList =
        render ((tokens selfish).map (Token.callSelf "Box".toList "p_Box".toList)) ∧
      render ((tokens selfish).map (Token.callSelf "Box".toList "p_Box".toList)) =
        "public p_Boxp_Box(p_Box[] a,BoxOf b,Box<p_Box>)".toList := by
  have hplain : '$' ∉ selfish := by decide +kernel
  have hline : signature "Box".toList selfish =
      .ok "public $Self$Self($Self[] a,BoxOf b,Box<$Self>)".toList := by decide +kernel
  exact ⟨hplain, hline, (resolveSelf_signature "p_Box".toList hplain hline).1, by decide +kernel⟩

end Declaration

end ClassSkeleton

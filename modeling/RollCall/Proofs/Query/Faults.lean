import RollCall.Proofs.Query.Misplaced
import RollCall.Proofs.Query.Placement
import RollCall.Proofs.Text.Offset

/-!
# Faults of a query text

Every fault of a text is as it says (`faults_of_parse`): what it shows stands at the place that it
names, a fault of a single token says what is wrong with the text there, and a fault in the order of
the tokens says where they are out of order.

The lexer stops at a place that no word reaches across (`Lexer.Apart`), so that a word that is no
keyword is reported as a whole.
-/

namespace RollCall

/-! ## What a fault shows -/

namespace SyntaxError

/-- Where a fault is reported. -/
def position? : SyntaxError → Option Nat
  | emptyQuery | unclosedParenthesis => none
  | invalidCharacter _ position | invalidTag position | unterminatedFolder position
  | unterminatedLink position | invalidKeyword _ position | unexpectedClosing position
  | missingOperand _ _ position | unexpectedTerm _ position => some position

/-- What stands there. -/
def shown : SyntaxError → List Char
  | emptyQuery | unclosedParenthesis => []
  | invalidCharacter character _ => [character]
  | invalidTag _ => ['#']
  | unterminatedFolder _ => ['"']
  | unterminatedLink _ => ['[', '[']
  | invalidKeyword word _ => word.toList
  | unexpectedClosing _ => [')']
  | missingOperand operation _ _ => operation.keyword
  | unexpectedTerm term _ => term.toList

/-- What a fault of a single token says about the text before and after what it shows. The faults in
the order of the tokens say nothing about it. -/
def Around (before after : List Char) : SyntaxError → Prop
  | invalidCharacter character _ => ∀ token : Token, ¬ token.spelling <+: character :: after
  | invalidTag _ =>
    let name := after.takeWhile fun c => !Token.isTagEnd c
    name = [] ∨ ∃ c ∈ name, Token.isTagChar c = false
  | unterminatedFolder _ => '"' ∉ after
  | unterminatedLink _ => ¬ [']', ']'] <:+: after
  | invalidKeyword word _ => word.toList ≠ [] ∧ (∀ c ∈ word.toList, c.isAlpha = true) ∧
      (∀ operation : Operation, word.toList ≠ operation.keyword) ∧
      (∀ c ∈ before.getLast?, c.isAlpha = false) ∧ ∀ c ∈ after.head?, c.isAlpha = false
  | emptyQuery | unclosedParenthesis | unexpectedClosing _ | missingOperand .. | unexpectedTerm .. =>
    False

/-- The text is as the fault says that it is around its place. -/
def OfText (text : List Char) (error : SyntaxError) : Prop :=
  ∃ before after, text = before ++ error.shown ++ after ∧
    error.position? = some (Text.bytes before) ∧ error.Around before after

theorem Around.shown_ne_nil {error : SyntaxError} {before after : List Char}
    (h : error.Around before after) : error.shown ≠ [] := by
  cases error with
  | invalidKeyword word position => exact h.1
  | invalidCharacter => simp [shown]
  | invalidTag => simp [shown]
  | unterminatedFolder => simp [shown]
  | unterminatedLink => simp [shown]
  | emptyQuery => exact h.elim
  | unclosedParenthesis => exact h.elim
  | unexpectedClosing => exact h.elim
  | missingOperand => exact h.elim
  | unexpectedTerm => exact h.elim

/-- A fault in the order of the tokens shows one of them. -/
theorem OfTokens.exists_shown {error : SyntaxError} {tokens : List PlacedToken} {position : Nat}
    (h : error.OfTokens tokens) (hposition : error.position? = some position) :
    ∃ placed ∈ tokens, placed.position = position ∧ placed.token.spelling = error.shown := by
  cases error with
  | emptyQuery => cases hposition
  | unclosedParenthesis => cases hposition
  | unexpectedClosing place =>
    obtain rfl := Option.some.inj hposition
    obtain ⟨before, after, rfl, -⟩ := h
    exact ⟨⟨.closing, place⟩, by simp, rfl, rfl⟩
  | missingOperand operation side place =>
    obtain rfl := Option.some.inj hposition
    have hkeyword : ∃ before after, tokens = before ++ ⟨.keyword operation, place⟩ :: after := by
      cases side with
      | left =>
        obtain ⟨before, after, htokens, -⟩ := h
        exact ⟨before, after, htokens⟩
      | right =>
        obtain ⟨before, after, htokens, -⟩ := h
        exact ⟨before, after, htokens⟩
    obtain ⟨before, after, rfl⟩ := hkeyword
    exact ⟨⟨.keyword operation, place⟩, by simp, rfl, rfl⟩
  | unexpectedTerm text place =>
    obtain rfl := Option.some.inj hposition
    obtain ⟨before, token, after, rfl, hspelling, -⟩ := h
    exact ⟨⟨token, place⟩, by simp, rfl, hspelling⟩
  | invalidCharacter => exact h.elim
  | invalidTag => exact h.elim
  | unterminatedFolder => exact h.elim
  | unterminatedLink => exact h.elim
  | invalidKeyword => exact h.elim

end SyntaxError

/-! ## Where the lexer stops -/

namespace Token

theorem not_isAlpha_of_isTagEnd {c : Char} (h : isTagEnd c = true) : c.isAlpha = false := by
  have hname := isTagChar_of_isTagEnd h
  simp only [isTagChar, Char.isAlphanum, Bool.or_eq_false_iff] at hname
  exact hname.1.1.1.1

theorem isTagEnd_of_isBlank {c : Char} (h : Text.isBlank c = true) : isTagEnd c = true := by
  simp [isTagEnd, h]

/-- A token that ends with a letter has no letter behind it. -/
theorem EndsBefore.head?_not_isAlpha {token : Token} {rest : List Char} (h : token.EndsBefore rest)
    {c : Char} (hlast : c ∈ token.spelling.getLast?) (hc : c.isAlpha = true) :
    ∀ d ∈ rest.head?, d.isAlpha = false := by
  have hother : ∀ (text : List Char) (d : Char), token.spelling = text ++ [d] → d.isAlpha = false →
      ∀ e ∈ rest.head?, e.isAlpha = false := by
    intro text d hspelling hd
    rw [hspelling] at hlast
    obtain rfl : d = c := by simpa using hlast
    rw [hd] at hc
    cases hc
  cases token with
  | term t =>
    cases t with
    | tag name => exact fun d hd => not_isAlpha_of_isTagEnd (h d hd)
    | folder path => exact hother ('"' :: path.toList) '"' rfl (by decide)
    | link target =>
      refine hother ('[' :: '[' :: target.toList ++ [']']) ']' ?_ (by decide)
      simp [spelling, Term.chars]
  | opening => exact hother [] '(' rfl (by decide)
  | closing => exact hother [] ')' rfl (by decide)
  | keyword operation => exact h

/-- Nothing that can be a name stands up to the end of a tag that is refused. -/
theorem name_of_refused_tag {text : List Char}
    (h : ¬ (text.takeWhile isTagChar ≠ [] ∧
      ((text.dropWhile isTagChar).head?.map isTagEnd).getD true = true)) :
    (text.takeWhile fun c => !isTagEnd c) = [] ∨
      ∃ c ∈ text.takeWhile fun c => !isTagEnd c, isTagChar c = false := by
  have hsplit : text.takeWhile isTagChar ++ text.dropWhile isTagChar = text :=
    List.takeWhile_append_dropWhile
  have hname : ∀ c ∈ text.takeWhile isTagChar, (!isTagEnd c) = true := by
    intro c hc
    by_contra hend
    have hchar : isTagChar c = true := List.mem_takeWhile_imp hc
    rw [isTagChar_of_isTagEnd (by simpa using hend)] at hchar
    cases hchar
  cases hrest : text.dropWhile isTagChar with
  | nil =>
    rw [hrest] at h
    have hnone : text.takeWhile isTagChar = [] := not_not.1 fun hne => h ⟨hne, rfl⟩
    rw [hrest, hnone] at hsplit
    exact .inl (by simp [← hsplit])
  | cons d rest =>
    have hd : isTagChar d = false := by
      have hhead := List.head?_dropWhile_not isTagChar text
      simpa [hrest] using hhead
    have htake : (text.takeWhile fun c => !isTagEnd c) =
        text.takeWhile isTagChar ++ (d :: rest).takeWhile fun c => !isTagEnd c := by
      conv_lhs => rw [← hsplit, hrest, List.takeWhile_append_of_pos hname]
    by_cases hend : isTagEnd d = true
    · rw [hrest] at h
      have hnone : text.takeWhile isTagChar = [] := not_not.1 fun hne => h ⟨hne, by simpa using hend⟩
      exact .inl (by rw [htake, hnone]; simp [hend])
    · exact .inr ⟨d, by rw [htake]; simp [hend], hd⟩

/-- No token begins with a character that begins none of the six kinds, or with a single bracket. -/
theorem not_spelling_isPrefix {c : Char} {text : List Char} (hopening : c ≠ '(') (hclosing : c ≠ ')')
    (htag : c ≠ '#') (hfolder : c ≠ '"') (hlink : c = '[' → ¬ ['['] <+: text)
    (hletter : c.isAlpha = false) (token : Token) : ¬ token.spelling <+: c :: text := by
  have hfirst : ∀ (d : Char) (rest : List Char), token.spelling = d :: rest → d ≠ c →
      ¬ token.spelling <+: c :: text := by
    intro d rest hspelling hne hprefix
    rw [hspelling, List.cons_prefix_cons] at hprefix
    exact hne hprefix.1
  have hne : ∀ d : Char, d.isAlpha = true → d ≠ c := by
    rintro d hd rfl
    rw [hd] at hletter
    cases hletter
  cases token with
  | term t =>
    cases t with
    | tag name => exact hfirst '#' name.toList rfl htag.symm
    | folder path => exact hfirst '"' (path.toList ++ ['"']) rfl hfolder.symm
    | link target =>
      intro hprefix
      obtain ⟨hc, hsecond⟩ := List.cons_prefix_cons.1 hprefix
      exact hlink hc.symm ((List.prefix_append ['['] _).trans hsecond)
  | opening => exact hfirst '(' [] rfl hopening.symm
  | closing => exact hfirst ')' [] rfl hclosing.symm
  | keyword operation =>
    cases operation with
    | and => exact hfirst 'a' ['n', 'd'] rfl (hne 'a' (by decide))
    | or => exact hfirst 'o' ['r'] rfl (hne 'o' (by decide))

end Token

namespace Lexer

variable {lexer place after : Lexer} {error : SyntaxError} {c : Char} {text : List Char}

/-- No word reaches across the place. -/
def Apart (lexer : Lexer) : Prop :=
  ∀ c ∈ lexer.done.getLast?, c.isAlpha = true → ∀ d ∈ lexer.rest.head?, d.isAlpha = false

theorem apart_start (text : List Char) : (start text).Apart := by
  simp [Apart, start]

theorem Apart.append_blanks (h : lexer.Apart) {blanks rest : List Char}
    (hblanks : ∀ c ∈ blanks, Text.isBlank c = true) (hrest : lexer.rest = blanks ++ rest) :
    Apart ⟨lexer.done ++ blanks, rest⟩ := by
  rcases List.eq_nil_or_concat' blanks with rfl | ⟨blanks, blank, rfl⟩
  · obtain rfl : lexer.rest = rest := hrest
    rwa [List.append_nil]
  · intro d hd halpha
    obtain rfl : blank = d := by simpa [← List.append_assoc] using hd
    have hend := Token.isTagEnd_of_isBlank (hblanks blank (by simp))
    rw [Token.not_isAlpha_of_isTagEnd hend] at halpha
    cases halpha

/-- Behind a token that ends before the rest no word reaches across. -/
theorem apart_append_spelling {token : Token} {rest : List Char} (hend : token.EndsBefore rest)
    (done : List Char) : Apart ⟨done ++ token.spelling, rest⟩ := by
  intro d hd halpha
  obtain ⟨first, others, hspelling, -⟩ := token.exists_spelling_eq_cons
  have hlast : d ∈ token.spelling.getLast? := by
    rw [List.getLast?_append_of_ne_nil _ (by simp [hspelling])] at hd
    exact hd
  exact hend.head?_not_isAlpha hlast halpha

/-- A text that is refused holds a place, reached through tokens and blanks, where the token that
begins there cannot be read. -/
theorem exists_fault_of_tokens (hapart : lexer.Apart) (h : lexer.tokens = .error error) :
    ∃ (place : Lexer) (c : Char) (text : List Char) (after : Lexer),
      place.done ++ place.rest = lexer.done ++ lexer.rest ∧ place.Apart ∧ place.rest = c :: text ∧
        place.readToken c text = (.error error, after) := by
  induction lexer using Lexer.tokens.induct with
  | case1 lexer nextError after hnext =>
    rw [Lexer.tokens, hnext] at h
    obtain rfl := Except.error.inj h
    obtain ⟨blanks, rest, hrest, hblanks, hhead⟩ := Text.exists_blanks_append lexer.rest
    cases rest with
    | nil =>
      rw [next_of_blanks (by simpa [hrest] using hblanks)] at hnext
      simp at hnext
    | cons c text =>
      rw [next_of_blanks_append hblanks (hhead c rfl) hrest] at hnext
      exact ⟨⟨lexer.done ++ blanks, c :: text⟩, c, text, after, by simp [hrest],
        hapart.append_blanks hblanks hrest, rfl, hnext⟩
  | case2 lexer after hnext =>
    rw [Lexer.tokens, hnext] at h
    cases h
  | case3 lexer placed after hnext laterError hlater ih =>
    rw [Lexer.tokens, hnext] at h
    simp only [hlater] at h
    obtain rfl := Except.error.inj h
    obtain ⟨blanks, -, hrest, -, -, hend, -, hdone⟩ := exists_of_next_eq_some hnext
    have hbehind : after.Apart := by
      have := apart_append_spelling hend (lexer.done ++ blanks)
      rwa [← hdone] at this
    obtain ⟨place, c, text, stopped, hsplit, hplace⟩ := ih hbehind hlater
    refine ⟨place, c, text, stopped, ?_, hplace⟩
    rw [hsplit, hdone, hrest]
    simp
  | case4 lexer placed after hnext found hfound ih =>
    rw [Lexer.tokens, hnext] at h
    simp only [hfound] at h
    cases h

/-! ## Why a token cannot be read -/

/-- The fault is reported at the place, where it shows what is in front and says what is around. -/
def Reports (place : Lexer) (error : SyntaxError) : Prop :=
  error.position? = some place.position ∧
    ∃ after, place.rest = error.shown ++ after ∧ error.Around place.done after

theorem reports_of_readTag (hrest : place.rest = '#' :: text)
    (h : place.readTag text = (.error error, after)) : place.Reports error := by
  unfold readTag at h
  dsimp only at h
  split at h
  · cases h
  · next hrefused =>
    simp only [fault, Prod.mk.injEq, Except.error.injEq] at h
    obtain ⟨rfl, -⟩ := h
    exact ⟨rfl, text, hrest, Token.name_of_refused_tag hrefused⟩

theorem reports_of_readFolder (hrest : place.rest = '"' :: text)
    (h : place.readFolder text = (.error error, after)) : place.Reports error := by
  unfold readFolder at h
  split at h
  · cases h
  · next hcut =>
    simp only [fault, Prod.mk.injEq, Except.error.injEq] at h
    obtain ⟨rfl, -⟩ := h
    refine ⟨rfl, text, hrest, fun hquote => ?_⟩
    obtain ⟨before, behind, rfl⟩ := List.append_of_mem hquote
    exact Text.cut?_eq_none_iff.1 hcut ⟨before, behind, by simp⟩

theorem reports_of_readLink (hrest : place.rest = '[' :: text)
    (h : place.readLink text = (.error error, after)) : place.Reports error := by
  unfold readLink at h
  split at h
  · next hsingle =>
    simp only [fault, Prod.mk.injEq, Except.error.injEq] at h
    obtain ⟨rfl, -⟩ := h
    have hbracket : ¬ ['['] <+: text := Text.after?_eq_none_iff.1 hsingle
    exact ⟨rfl, text, hrest, Token.not_spelling_isPrefix (by decide) (by decide) (by decide)
      (by decide) (fun _ => hbracket) (by decide)⟩
  · next inner hinner =>
    split at h
    · cases h
    · next hcut =>
      simp only [fault, Prod.mk.injEq, Except.error.injEq] at h
      obtain ⟨rfl, -⟩ := h
      have htext : text = '[' :: inner := Text.after?_eq_some_iff.1 hinner
      exact ⟨rfl, inner, by rw [hrest, htext]; rfl, Text.cut?_eq_none_iff.1 hcut⟩

theorem reports_of_readWord (hapart : place.Apart) (hc : c.isAlpha = true)
    (hrest : place.rest = c :: text) (h : place.readWord (c :: text) = (.error error, after)) :
    place.Reports error := by
  have hsplit : (c :: text).takeWhile Char.isAlpha ++ (c :: text).dropWhile Char.isAlpha = c :: text :=
    List.takeWhile_append_dropWhile
  unfold readWord at h
  dsimp only at h
  split at h
  · cases h
  · next hand =>
    split at h
    · cases h
    · next hor =>
      simp only [fault, Prod.mk.injEq, Except.error.injEq] at h
      obtain ⟨rfl, -⟩ := h
      refine ⟨rfl, (c :: text).dropWhile Char.isAlpha, ?_, ?_, ?_, ?_, ?_, ?_⟩
      · rw [hrest, SyntaxError.shown, String.toList_ofList, hsplit]
      · simp [hc]
      · intro d hd
        rw [String.toList_ofList] at hd
        exact List.mem_takeWhile_imp hd
      · intro operation
        rw [String.toList_ofList]
        cases operation with
        | and => exact hand
        | or => exact hor
      · intro d hd
        by_contra hletter
        have hhead := hapart d hd (by simpa using hletter) c (by rw [hrest]; rfl)
        rw [hc] at hhead
        cases hhead
      · intro d hd
        have hhead := List.head?_dropWhile_not Char.isAlpha (c :: text)
        rw [Option.mem_def.1 hd] at hhead
        simpa using hhead

theorem reports_of_readToken (hapart : place.Apart) (hrest : place.rest = c :: text)
    (h : place.readToken c text = (.error error, after)) : place.Reports error := by
  unfold readToken at h
  split at h
  · cases h
  next hopening =>
  split at h
  · cases h
  next hclosing =>
  split at h
  · next hc => exact reports_of_readTag (hc ▸ hrest) h
  next htag =>
  split at h
  · next hc => exact reports_of_readFolder (hc ▸ hrest) h
  next hfolder =>
  split at h
  · next hc => exact reports_of_readLink (hc ▸ hrest) h
  next hlink =>
  split at h
  · next hletter => exact reports_of_readWord hapart hletter hrest h
  · next hletter =>
    simp only [fault, Prod.mk.injEq, Except.error.injEq] at h
    obtain ⟨rfl, -⟩ := h
    exact ⟨rfl, text, hrest, Token.not_spelling_isPrefix hopening hclosing htag hfolder
      (fun hc => absurd hc hlink) (by simpa using hletter)⟩

end Lexer

/-- A text that has no tokens is as the fault says. -/
theorem SyntaxError.ofText_of_read {text : String} {error : SyntaxError}
    (h : Token.read text = .error error) : error.OfText text.toList := by
  obtain ⟨place, c, rest, after, htext, hapart, hrest, hread⟩ :=
    Lexer.exists_fault_of_tokens (Lexer.apart_start text.toList) h
  obtain ⟨hposition, behind, hshown, haround⟩ := Lexer.reports_of_readToken hapart hrest hread
  refine ⟨place.done, behind, ?_, hposition, haround⟩
  have hwhole : place.done ++ place.rest = text.toList := by simpa [Lexer.start] using htext
  rw [← hwhole, hshown, List.append_assoc]

/-! ## Every fault -/

namespace Query

/-- A place in front of text that is there is a position between two characters, in front of the
end. -/
theorem isValid_of_shown {text : String} {before shown after : List Char}
    (htext : text.toList = before ++ shown ++ after) (hshown : shown ≠ []) :
    String.Pos.Raw.IsValid text ⟨Text.bytes before⟩ ∧ Text.bytes before < text.utf8ByteSize := by
  have hsize : text.utf8ByteSize = Text.bytes text.toList := by
    rw [← Text.bytes_ofList, String.ofList_toList]
  have hpos := Text.bytes_pos hshown
  refine ⟨Text.isValid_bytes (by rw [htext, List.append_assoc]), ?_⟩
  rw [hsize, htext, Text.bytes_append, Text.bytes_append]
  omega

/-- Whatever a text is refused for is so. A place that is reported is a position between two
characters in front of the end of the text, and what the fault shows stands there. A fault of a
single token says what is wrong with the text around that place; any other fault says where the
tokens of the text are out of order. -/
theorem faults_of_parse {text : String} {error : SyntaxError} (h : parse text = .error error) :
    (∀ position ∈ error.position?,
      String.Pos.Raw.IsValid text ⟨position⟩ ∧ position < text.utf8ByteSize ∧
        ∃ before after, text.toList = before ++ error.shown ++ after ∧
          Text.bytes before = position) ∧
      (error.OfText text.toList ∨
        ∃ tokens, Token.read text = .ok tokens ∧ error.OfTokens tokens) := by
  unfold parse at h
  cases hread : Token.read text with
  | error readError =>
    rw [hread] at h
    obtain rfl := Except.error.inj h
    have htruth := SyntaxError.ofText_of_read hread
    refine ⟨fun position hposition => ?_, .inl htruth⟩
    obtain ⟨before, after, htext, hplace, haround⟩ := htruth
    obtain rfl := Option.some.inj (hplace.symm.trans hposition)
    obtain ⟨hvalid, hlt⟩ := isValid_of_shown htext haround.shown_ne_nil
    exact ⟨hvalid, hlt, before, after, htext, rfl⟩
  | ok tokens =>
    rw [hread] at h
    have htruth := ofTokens_of_ofTokens? h
    refine ⟨fun position hposition => ?_, .inr ⟨tokens, rfl, htruth⟩⟩
    obtain ⟨placed, hplaced, rfl, hspelling⟩ := htruth.exists_shown hposition
    obtain ⟨before, after, htext, hplace⟩ := (Token.read_eq_ok_iff.1 hread).exists_place hplaced
    rw [hspelling] at htext
    rw [Nat.zero_add] at hplace
    have hne : error.shown ≠ [] := by
      obtain ⟨c, rest, hcons, -⟩ := placed.token.exists_spelling_eq_cons
      rw [← hspelling, hcons]
      simp
    obtain ⟨hvalid, hlt⟩ := isValid_of_shown htext hne
    exact ⟨hplace ▸ hvalid, hplace ▸ hlt, before, after, htext, hplace.symm⟩

/-- A tag behind a folder whose letters take more than one byte each. -/
theorem faults_of_parse_accents :
    parse "\"été\" #bass" = .error (.unexpectedTerm "#bass" 8) ∧
      (String.Pos.Raw.IsValid "\"été\" #bass" ⟨8⟩ ∧ 8 < "\"été\" #bass".utf8ByteSize ∧
        ∃ before after, "\"été\" #bass".toList = before ++ "#bass".toList ++ after ∧
          Text.bytes before = 8) ∧
      ∃ tokens, Token.read "\"été\" #bass" = .ok tokens ∧
        (SyntaxError.unexpectedTerm "#bass" 8).OfTokens tokens := by
  have h : parse "\"été\" #bass" = .error (.unexpectedTerm "#bass" 8) := by decide +kernel
  obtain ⟨hplace, hkind⟩ := faults_of_parse h
  exact ⟨h, hplace 8 rfl, hkind.resolve_left fun ⟨_, _, _, _, haround⟩ => haround⟩

end Query
end RollCall

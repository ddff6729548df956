import RollCall.Proofs.Text.Line
import RollCall.Query.Lexer

/-!
# Spelled tokens

Which tokens can be written, and which texts spell a list of tokens: their spellings in order with
blanks around them, where a tag and a keyword have to be seen to end. The lexer accepts exactly these
texts (`tokens_eq_ok_iff`).
-/

namespace RollCall

/-- A term that can be written: a tag has a name of tag characters, a folder has no quote, and
nothing in a link closes it too early. -/
def Term.Spellable : Term → Prop
  | tag name => name.toList ≠ [] ∧ ∀ c ∈ name.toList, Token.isTagChar c = true
  | folder path => '"' ∉ path.toList
  | link target => Text.OnlyAtEnd [']', ']'] target.toList

instance : (term : Term) → Decidable term.Spellable
  | .tag name =>
    decidable_of_iff (name.toList ≠ [] ∧ name.toList.all Token.isTagChar = true)
      (by simp [Term.Spellable])
  | .folder path => inferInstanceAs (Decidable ('"' ∉ path.toList))
  | .link target => inferInstanceAs (Decidable (Text.OnlyAtEnd [']', ']'] target.toList))

namespace Token

/-- A token that can be written. -/
def Spellable : Token → Prop
  | term t => t.Spellable
  | opening | closing | keyword _ => True

/-- The token ends where its spelling does, given what follows it. -/
def EndsBefore : Token → List Char → Prop
  | term (.tag _), rest => ∀ c ∈ rest.head?, isTagEnd c = true
  | keyword _, rest => ∀ c ∈ rest.head?, c.isAlpha = false
  | _, _ => True

theorem isTagChar_of_isTagEnd {c : Char} (h : isTagEnd c = true) : isTagChar c = false := by
  have hval : ∀ d : Char, c = d ↔ c.toNat = d.toNat := fun d => by simp [← Char.toNat_inj]
  simp only [isTagEnd, Text.isBlank, Bool.or_eq_true, Bool.and_eq_true, decide_eq_true_eq,
    beq_iff_eq, hval, Char.reduceToNat] at h
  unfold isTagChar Char.isAlphanum Char.isAlpha Char.isUpper Char.isLower Char.isDigit
  simp only [Bool.or_eq_false_iff, Bool.and_eq_false_iff, decide_eq_false_iff_not,
    beq_eq_false_iff_ne, ne_eq, hval, UInt32.le_iff_toNat_le, ge_iff_le, Char.toNat_val,
    Char.reduceToNat]
  omega

/-- A spelling begins with a character that is no blank. -/
theorem exists_spelling_eq_cons (token : Token) :
    ∃ c text, token.spelling = c :: text ∧ Text.isBlank c = false := by
  cases token with
  | term t =>
    cases t with
    | tag name => exact ⟨'#', name.toList, rfl, by decide⟩
    | folder path => exact ⟨'"', path.toList ++ ['"'], rfl, by decide⟩
    | link target => exact ⟨'[', '[' :: target.toList ++ [']', ']'], rfl, by decide⟩
  | opening => exact ⟨'(', [], rfl, by decide⟩
  | closing => exact ⟨')', [], rfl, by decide⟩
  | keyword operation =>
    cases operation with
    | and => exact ⟨'a', ['n', 'd'], rfl, by decide⟩
    | or => exact ⟨'o', ['r'], rfl, by decide⟩

end Token

/-- The text spells the tokens, the first of which stands at or behind the offset. -/
inductive Spelled : Nat → List Char → List PlacedToken → Prop where
  /-- Blanks spell no token. -/
  | blanks {offset : Nat} {text : List Char} (h : ∀ c ∈ text, Text.isBlank c = true) :
      Spelled offset text []
  /-- Blanks and the spelling of a token, which ends there, are followed by further tokens. -/
  | token {offset : Nat} {blanks rest : List Char} {token : Token} {tokens : List PlacedToken}
      (hblanks : ∀ c ∈ blanks, Text.isBlank c = true) (hspell : token.Spellable)
      (hend : token.EndsBefore rest)
      (h : Spelled (offset + Text.bytes blanks + Text.bytes token.spelling) rest tokens) :
      Spelled offset (blanks ++ token.spelling ++ rest)
        (⟨token, offset + Text.bytes blanks⟩ :: tokens)

/-- A blank in front moves the tokens. -/
theorem Spelled.cons_blank {offset : Nat} {text : List Char} {tokens : List PlacedToken} {c : Char}
    (hc : Text.isBlank c = true) (h : Spelled (offset + c.utf8Size) text tokens) :
    Spelled offset (c :: text) tokens := by
  cases h with
  | blanks h => exact .blanks (by simpa [hc] using h)
  | @token _ blanks rest token tokens hblanks hspell hend h =>
    have hsum : offset + c.utf8Size + Text.bytes blanks = offset + Text.bytes (c :: blanks) := by
      simp [Nat.add_assoc]
    rw [hsum] at h ⊢
    rw [← List.cons_append, ← List.cons_append]
    exact .token (by simpa [hc] using hblanks) hspell hend h

namespace Lexer

variable {lexer after : Lexer} {placed : PlacedToken} {rest : List Char}

/-- The place behind a spelling that stands in front of the rest. -/
theorem advance_length {spelling : List Char} (h : lexer.rest = spelling ++ rest) :
    lexer.advance spelling.length = ⟨lexer.done ++ spelling, rest⟩ := by
  simp [advance, h]

/-- What a step has found: the token is in front of the rest, can be written and ends there. -/
def Finds (lexer : Lexer) (placed : PlacedToken) (after : Lexer) : Prop :=
  lexer.rest = placed.token.spelling ++ after.rest ∧ placed.token.Spellable ∧
    placed.token.EndsBefore after.rest ∧ placed.position = lexer.position ∧
    after.done = lexer.done ++ placed.token.spelling

theorem finds_found (token : Token) (rest : List Char) {n : Nat}
    (hrest : lexer.rest = token.spelling ++ rest) (hn : n = token.spelling.length)
    (hspell : token.Spellable) (hend : token.EndsBefore rest)
    (h : lexer.found token n = (.ok (some placed), after)) : lexer.Finds placed after := by
  subst hn
  simp only [found, advance_length hrest, Prod.mk.injEq, Except.ok.injEq, Option.some.injEq] at h
  obtain ⟨rfl, rfl⟩ := h
  exact ⟨hrest, hspell, hend, rfl, rfl⟩

theorem not_finds_fault {error : SyntaxError} {n : Nat} :
    lexer.fault error n ≠ (.ok (some placed), after) := by
  simp [fault]

/-! ## One token -/

theorem finds_of_readTag {text : List Char} (hrest : lexer.rest = '#' :: text)
    (h : lexer.readTag text = (.ok (some placed), after)) : lexer.Finds placed after := by
  unfold readTag at h
  dsimp only at h
  split at h
  · next hc =>
    obtain ⟨hne, hended⟩ := hc
    refine finds_found (.term (.tag _)) (text.dropWhile Token.isTagChar) ?_ ?_ ?_ ?_ h
    · simp [Token.spelling, Term.chars, hrest]
    · simp [Token.spelling, Term.chars, Nat.add_comm]
    · refine ⟨by simpa using hne, fun c hc => List.mem_takeWhile_imp (by simpa using hc)⟩
    · intro c hc
      rw [Option.mem_def.1 hc] at hended
      simpa using hended
  · exact absurd h not_finds_fault

theorem finds_of_readFolder {text : List Char} (hrest : lexer.rest = '"' :: text)
    (h : lexer.readFolder text = (.ok (some placed), after)) : lexer.Finds placed after := by
  unfold readFolder at h
  split at h
  · next path rest hcut =>
    obtain ⟨rfl, hfirst⟩ := Text.cut?_eq_some_iff.1 hcut
    refine finds_found (.term (.folder _)) rest ?_ ?_ ?_ trivial h
    · simp [Token.spelling, Term.chars, hrest]
    · simp [Token.spelling, Term.chars]
    · simpa [Token.Spellable, Term.Spellable] using Text.onlyAtEnd_singleton_iff.1 hfirst
  · exact absurd h not_finds_fault

theorem finds_of_readLink {text : List Char} (hrest : lexer.rest = '[' :: text)
    (h : lexer.readLink text = (.ok (some placed), after)) : lexer.Finds placed after := by
  unfold readLink at h
  split at h
  · exact absurd h not_finds_fault
  · next inner hinner =>
    have htext : text = '[' :: inner := Text.after?_eq_some_iff.1 hinner
    split at h
    · next target rest hcut =>
      obtain ⟨rfl, hfirst⟩ := Text.cut?_eq_some_iff.1 hcut
      refine finds_found (.term (.link _)) rest ?_ ?_ ?_ trivial h
      · simp [Token.spelling, Term.chars, hrest, htext]
      · simp [Token.spelling, Term.chars]
      · simpa [Token.Spellable, Term.Spellable] using hfirst
    · exact absurd h not_finds_fault

theorem finds_of_readWord {text : List Char} (hrest : lexer.rest = text)
    (h : lexer.readWord text = (.ok (some placed), after)) : lexer.Finds placed after := by
  have hkeyword : ∀ operation, text.takeWhile Char.isAlpha = Operation.keyword operation →
      lexer.found (.keyword operation) (text.takeWhile Char.isAlpha).length =
        (.ok (some placed), after) → lexer.Finds placed after := by
    intro operation hword hfound
    refine finds_found (.keyword operation) (text.dropWhile Char.isAlpha) ?_ (by rw [hword]; rfl)
      trivial ?_ hfound
    · rw [hrest, Token.spelling, ← hword, List.takeWhile_append_dropWhile]
    · intro c hc
      have := List.head?_dropWhile_not Char.isAlpha text
      rw [Option.mem_def.1 hc] at this
      simpa using this
  unfold readWord at h
  dsimp only at h
  split at h
  · next hw => exact hkeyword _ hw h
  · split at h
    · next hw => exact hkeyword _ hw h
    · exact absurd h not_finds_fault

theorem finds_of_readToken {c : Char} {text : List Char} (hrest : lexer.rest = c :: text)
    (h : lexer.readToken c text = (.ok (some placed), after)) : lexer.Finds placed after := by
  unfold readToken at h
  split at h
  · next hc => exact finds_found .opening text (by rw [hrest, hc]; rfl) rfl trivial trivial h
  split at h
  · next hc => exact finds_found .closing text (by rw [hrest, hc]; rfl) rfl trivial trivial h
  split at h
  · next hc => exact finds_of_readTag (hc ▸ hrest) h
  split at h
  · next hc => exact finds_of_readFolder (hc ▸ hrest) h
  split at h
  · next hc => exact finds_of_readLink (hc ▸ hrest) h
  split at h
  · exact finds_of_readWord hrest h
  · exact absurd h not_finds_fault

theorem readWord_spelling {operation : Operation} (hend : (Token.keyword operation).EndsBefore rest) :
    lexer.readWord (operation.keyword ++ rest) =
      lexer.found (.keyword operation) operation.keyword.length := by
  have hword : (operation.keyword ++ rest).takeWhile Char.isAlpha = operation.keyword :=
    Text.takeWhile_append_of_head? (by cases operation <;> simp [Operation.keyword]) hend
  have hne : Operation.or.keyword ≠ Operation.and.keyword := by decide
  cases operation with
  | and => simp [readWord, hword]
  | or => simp [readWord, hword, hne]

theorem readTag_spelling {name : String} (hspell : (Term.tag name).Spellable)
    (hend : (Token.term (.tag name)).EndsBefore rest) :
    lexer.readTag (name.toList ++ rest) =
      lexer.found (.term (.tag name)) (Token.spelling (.term (.tag name))).length := by
  obtain ⟨hne, hchars⟩ := hspell
  have hstop : ∀ d ∈ rest.head?, Token.isTagChar d = false := fun d hd =>
    Token.isTagChar_of_isTagEnd (hend d hd)
  have htake := Text.takeWhile_append_of_head? hchars hstop
  have hdrop := Text.dropWhile_append_of_head? hchars hstop
  have hended : (rest.head?.map Token.isTagEnd).getD true = true := by
    cases rest with
    | nil => rfl
    | cons d rest => simpa using hend d rfl
  simp [readTag, htake, hdrop, hended, hne, Token.spelling, Term.chars, Nat.add_comm]

theorem readFolder_spelling {path : String} (hspell : (Term.folder path).Spellable) :
    lexer.readFolder (path.toList ++ '"' :: rest) =
      lexer.found (.term (.folder path)) (Token.spelling (.term (.folder path))).length := by
  have hcut := Text.cut?_append (Text.onlyAtEnd_singleton_iff.2 hspell) rest
  simp only [List.append_assoc, List.singleton_append] at hcut
  simp [readFolder, hcut, Token.spelling, Term.chars]

theorem readLink_spelling {target : String} (hspell : (Term.link target).Spellable) :
    lexer.readLink ('[' :: (target.toList ++ ']' :: ']' :: rest)) =
      lexer.found (.term (.link target)) (Token.spelling (.term (.link target))).length := by
  have hcut := Text.cut?_append hspell rest
  simp only [List.append_assoc, List.cons_append, List.nil_append] at hcut
  simp [readLink, hcut, Token.spelling, Term.chars]

/-- Every token that can be written is read where it stands and ends. -/
theorem readToken_spelling {c : Char} {text : List Char} {token : Token}
    (hspelling : token.spelling ++ rest = c :: text) (hspell : token.Spellable)
    (hend : token.EndsBefore rest) :
    lexer.readToken c text = lexer.found token token.spelling.length := by
  cases token with
  | opening =>
    simp only [Token.spelling, List.cons_append, List.cons.injEq] at hspelling
    simp [readToken, ← hspelling.1, Token.spelling]
  | closing =>
    simp only [Token.spelling, List.cons_append, List.cons.injEq] at hspelling
    simp [readToken, ← hspelling.1, Token.spelling]
  | keyword operation =>
    have hletter : lexer.readToken c text = lexer.readWord (c :: text) := by
      have hc : c = 'a' ∨ c = 'o' := by
        cases operation with
        | and => exact .inl (List.cons.inj hspelling).1.symm
        | or => exact .inr (List.cons.inj hspelling).1.symm
      rcases hc with rfl | rfl <;> simp [readToken]
    rw [hletter, ← hspelling]
    exact readWord_spelling hend
  | term t =>
    cases t with
    | tag name =>
      obtain ⟨rfl, rfl⟩ : '#' = c ∧ name.toList ++ rest = text := by
        simpa [Token.spelling, Term.chars] using hspelling
      exact readTag_spelling hspell hend
    | folder path =>
      obtain ⟨rfl, rfl⟩ : '"' = c ∧ path.toList ++ '"' :: rest = text := by
        simpa [Token.spelling, Term.chars] using hspelling
      exact readFolder_spelling hspell
    | link target =>
      obtain ⟨rfl, rfl⟩ : '[' = c ∧ '[' :: (target.toList ++ ']' :: ']' :: rest) = text := by
        simpa [Token.spelling, Term.chars] using hspelling
      exact readLink_spelling hspell

/-! ## All tokens -/

theorem position_append (lexer : Lexer) (text rest : List Char) :
    position ⟨lexer.done ++ text, rest⟩ = lexer.position + Text.bytes text := by
  simp [position]

theorem skipBlanks_append {blanks : List Char} (hblanks : ∀ c ∈ blanks, Text.isBlank c = true)
    (hrest : ∀ c ∈ rest.head?, Text.isBlank c = false) (h : lexer.rest = blanks ++ rest) :
    lexer.skipBlanks = ⟨lexer.done ++ blanks, rest⟩ := by
  have htake : lexer.rest.takeWhile Text.isBlank = blanks := by
    rw [h, Text.takeWhile_append_of_head? hblanks hrest]
  rw [skipBlanks, htake]
  exact advance_length h

theorem next_of_blanks (h : ∀ c ∈ lexer.rest, Text.isBlank c = true) :
    lexer.next = (.ok none, ⟨lexer.done ++ lexer.rest, []⟩) := by
  have hskip := skipBlanks_append h (by simp) (List.append_nil lexer.rest).symm
  simp [next, hskip]

theorem next_of_blanks_append {blanks text : List Char} {c : Char}
    (hblanks : ∀ c ∈ blanks, Text.isBlank c = true) (hc : Text.isBlank c = false)
    (h : lexer.rest = blanks ++ c :: text) :
    lexer.next = readToken ⟨lexer.done ++ blanks, c :: text⟩ c text := by
  have hskip := skipBlanks_append hblanks (by simpa using hc) h
  simp [next, hskip]

/-- A lexer at the end of its text, blanks apart, finds no more tokens. -/
theorem tokens_of_blanks (h : ∀ c ∈ lexer.rest, Text.isBlank c = true) :
    lexer.tokens = .ok [] := by
  rw [tokens, next_of_blanks h]

/-- A token in front, behind blanks, is the first one. -/
theorem tokens_of_spelling {blanks : List Char} {token : Token}
    (hblanks : ∀ c ∈ blanks, Text.isBlank c = true) (hspell : token.Spellable)
    (hend : token.EndsBefore rest) (h : lexer.rest = blanks ++ token.spelling ++ rest) :
    lexer.tokens = (tokens ⟨lexer.done ++ blanks ++ token.spelling, rest⟩).map
      (⟨token, lexer.position + Text.bytes blanks⟩ :: ·) := by
  obtain ⟨c, text, hc, hblank⟩ := token.exists_spelling_eq_cons
  have hcons : token.spelling ++ rest = c :: (text ++ rest) := by rw [hc]; rfl
  have hnext : lexer.next =
      found ⟨lexer.done ++ blanks, c :: (text ++ rest)⟩ token token.spelling.length := by
    rw [next_of_blanks_append hblanks hblank (by rw [h, List.append_assoc, hcons])]
    exact readToken_spelling hcons hspell hend
  rw [tokens, hnext]
  simp only [found, position_append]
  rw [advance_length hcons.symm]
  cases tokens ⟨lexer.done ++ blanks ++ token.spelling, rest⟩ <;> rfl

theorem readToken_ne_none (lexer : Lexer) (c : Char) (text : List Char) :
    lexer.readToken c text ≠ (.ok none, after) := by
  unfold readToken readTag readFolder readLink readWord
  dsimp only
  repeat' split
  all_goals simp [found, fault]

theorem blank_of_next_eq_none (h : lexer.next = (.ok none, after)) :
    ∀ c ∈ lexer.rest, Text.isBlank c = true := by
  obtain ⟨blanks, rest, hrest, hblanks, hhead⟩ := Text.exists_blanks_append lexer.rest
  cases rest with
  | nil => simpa [hrest] using hblanks
  | cons c text =>
    rw [next_of_blanks_append hblanks (hhead c rfl) hrest] at h
    exact absurd h (readToken_ne_none _ c text)

/-- What `next` finds stands behind blanks. -/
theorem exists_of_next_eq_some (h : lexer.next = (.ok (some placed), after)) :
    ∃ blanks, (∀ c ∈ blanks, Text.isBlank c = true) ∧
      lexer.rest = blanks ++ placed.token.spelling ++ after.rest ∧
      Finds ⟨lexer.done ++ blanks, placed.token.spelling ++ after.rest⟩ placed after := by
  obtain ⟨blanks, rest, hrest, hblanks, hhead⟩ := Text.exists_blanks_append lexer.rest
  cases rest with
  | nil =>
    rw [next_of_blanks (by simpa [hrest] using hblanks)] at h
    simp at h
  | cons c text =>
    rw [next_of_blanks_append hblanks (hhead c rfl) hrest] at h
    have hfinds := finds_of_readToken rfl h
    have hsplit : c :: text = placed.token.spelling ++ after.rest := hfinds.1
    refine ⟨blanks, hblanks, by rw [hrest, hsplit, List.append_assoc], ?_⟩
    rwa [← hsplit]

theorem tokens_of_spelled {offset : Nat} {text : List Char} {tokens : List PlacedToken}
    (h : Spelled offset text tokens) : ∀ lexer : Lexer, lexer.rest = text →
      lexer.position = offset → lexer.tokens = .ok tokens := by
  induction h with
  | blanks hblanks =>
    rintro lexer rfl -
    exact tokens_of_blanks hblanks
  | @token offset blanks rest token tokens hblanks hspell hend _ ih =>
    rintro lexer hrest rfl
    rw [tokens_of_spelling hblanks hspell hend hrest, ih]
    · rfl
    · rfl
    · rw [List.append_assoc, position_append, Text.bytes_append, Nat.add_assoc]

theorem spelled_of_tokens {tokens : List PlacedToken} (h : lexer.tokens = .ok tokens) :
    Spelled lexer.position lexer.rest tokens := by
  induction lexer using Lexer.tokens.induct generalizing tokens with
  | case1 lexer error after hnext =>
    rw [Lexer.tokens, hnext] at h
    simp at h
  | case2 lexer after hnext =>
    rw [Lexer.tokens, hnext] at h
    simp only [Except.ok.injEq] at h
    exact h ▸ .blanks (blank_of_next_eq_none hnext)
  | case3 lexer placed after hnext error herror ih =>
    rw [Lexer.tokens, hnext] at h
    simp [herror] at h
  | case4 lexer placed after hnext found hfound ih =>
    rw [Lexer.tokens, hnext] at h
    simp only [hfound, Except.ok.injEq] at h
    subst h
    obtain ⟨blanks, hblanks, hrest, -, hspell, hend, hposition, hdone⟩ := exists_of_next_eq_some hnext
    have hstart : placed = ⟨placed.token, lexer.position + Text.bytes blanks⟩ := by
      rw [← position_append lexer blanks (placed.token.spelling ++ after.rest), ← hposition]
    have hafter : after.position =
        lexer.position + Text.bytes blanks + Text.bytes placed.token.spelling := by
      simp [position, hdone, Nat.add_assoc]
    rw [hrest, hstart]
    exact .token hblanks hspell hend (hafter ▸ ih hfound)

/-- The lexer gives the tokens that the rest of the text spells, and no others. -/
theorem tokens_eq_ok_iff {tokens : List PlacedToken} :
    lexer.tokens = .ok tokens ↔ Spelled lexer.position lexer.rest tokens := by
  constructor
  · exact spelled_of_tokens
  · exact fun h => tokens_of_spelled h lexer rfl rfl

end Lexer

/-- Reading a text gives the tokens that it spells. -/
theorem Token.read_eq_ok_iff {text : String} {tokens : List PlacedToken} :
    Token.read text = .ok tokens ↔ Spelled 0 text.toList tokens :=
  Lexer.tokens_eq_ok_iff

theorem Spelled.spellable {offset : Nat} {text : List Char} {tokens : List PlacedToken}
    (h : Spelled offset text tokens) : ∀ placed ∈ tokens, placed.token.Spellable := by
  induction h with
  | blanks => simp
  | token _ hspell _ _ ih => simpa using ⟨hspell, ih⟩

end RollCall

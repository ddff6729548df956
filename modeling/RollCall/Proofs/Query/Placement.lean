import RollCall.Proofs.Query.Canonical

/-!
# Where tokens stand

A text is read as the tokens that it spells, each at the offset of its spelling (`read_exact`). Many
texts spell the same tokens; one of them has single spaces between the tokens.
-/

namespace RollCall

theorem Spelled.exists_place {offset : Nat} {text : List Char} {tokens : List PlacedToken}
    (h : Spelled offset text tokens) {placed : PlacedToken} (hplaced : placed ∈ tokens) :
    ∃ before after, text = before ++ placed.token.spelling ++ after ∧
      placed.position = offset + Text.bytes before := by
  induction h with
  | blanks => exact absurd hplaced List.not_mem_nil
  | @token offset blanks rest token tokens _ _ _ _ ih =>
    rcases List.mem_cons.1 hplaced with rfl | hlater
    · exact ⟨blanks, rest, rfl, rfl⟩
    · obtain ⟨before, after, rfl, hposition⟩ := ih hlater
      refine ⟨blanks ++ token.spelling ++ before, after, by simp, ?_⟩
      rw [hposition, Text.bytes_append, Text.bytes_append]
      omega

namespace Token

/-- The tokens at their offsets when they are written with single spaces between them. -/
def spaced : Nat → List Token → List PlacedToken
  | _, [] => []
  | offset, token :: tokens =>
    ⟨token, offset⟩ :: spaced (offset + Text.bytes token.spelling + ' '.utf8Size) tokens

theorem map_token_spaced (offset : Nat) (tokens : List Token) :
    (spaced offset tokens).map PlacedToken.token = tokens := by
  induction tokens generalizing offset with
  | nil => rfl
  | cons token tokens ih => rw [spaced, List.map_cons, ih]

/-- A space ends every token. -/
theorem endsBefore_space (token : Token) (rest : List Char) : token.EndsBefore (' ' :: rest) := by
  have hspace : isTagEnd ' ' = true := by decide
  cases token with
  | term t => cases t <;> simp [EndsBefore, hspace]
  | opening => trivial
  | closing => trivial
  | keyword operation => simp [EndsBefore]

theorem endsBefore_nil (token : Token) : token.EndsBefore [] := by
  cases token with
  | term t => cases t <;> simp [EndsBefore]
  | opening => trivial
  | closing => trivial
  | keyword operation => simp [EndsBefore]

theorem spelled_spaced {tokens : List Token} (h : ∀ token ∈ tokens, token.Spellable) (offset : Nat) :
    Spelled offset (Text.join ' ' (tokens.map spelling)) (spaced offset tokens) := by
  induction tokens generalizing offset with
  | nil => exact .blanks (by simp [Text.join])
  | cons token tokens ih =>
    have hspell : token.Spellable := h token List.mem_cons_self
    have hlater := ih fun other hother => h other (List.mem_cons_of_mem _ hother)
    cases tokens with
    | nil =>
      have hnone : Spelled (offset + Text.bytes token.spelling) [] [] := .blanks (by simp)
      have htoken := Query.spelled_token token hspell token.endsBefore_nil hnone
      rw [List.append_nil] at htoken
      rwa [List.map_singleton, Text.join_singleton]
    | cons next tokens =>
      have hspace := (hlater (offset + Text.bytes token.spelling + ' '.utf8Size)).cons_blank
        (c := ' ') (by decide)
      rw [List.map_cons, Text.join_cons_of_ne_nil _ (by simp)]
      exact Query.spelled_token token hspell (token.endsBefore_space _) hspace

/-- Reading a text gives a list of tokens exactly if the text is made of their spellings in this
order, with blanks around them, and every position is the offset of a spelling. Tokens that can be
written are read back when they are written with single spaces between them. -/
theorem read_exact :
    (∀ (text : String) (tokens : List PlacedToken),
      read text = .ok tokens ↔ Spelled 0 text.toList tokens) ∧
    (∀ (text : String) (tokens : List PlacedToken), read text = .ok tokens →
      ∀ placed ∈ tokens, ∃ before after,
        text.toList = before ++ placed.token.spelling ++ after ∧
          placed.position = Text.bytes before) ∧
    ∀ tokens : List Token, (∀ token ∈ tokens, token.Spellable) →
      read (String.ofList (Text.join ' ' (tokens.map spelling))) = .ok (spaced 0 tokens) ∧
        (spaced 0 tokens).map PlacedToken.token = tokens := by
  refine ⟨fun text tokens => read_eq_ok_iff, fun text tokens h placed hplaced => ?_,
    fun tokens h => ⟨?_, map_token_spaced 0 tokens⟩⟩
  · obtain ⟨before, after, htext, hposition⟩ := (read_eq_ok_iff.1 h).exists_place hplaced
    exact ⟨before, after, htext, by rw [hposition, Nat.zero_add]⟩
  · rw [read_eq_ok_iff, String.toList_ofList]
    exact spelled_spaced h 0

/-- A tag that is followed by a keyword, and a link that holds a bracket. -/
theorem read_exact_choir :
    let tokens := [opening, term (.tag "choir/alto"), keyword .and, term (.link "a]b"), closing]
    let text := String.ofList (Text.join ' ' (tokens.map spelling))
    (∀ token ∈ tokens, token.Spellable) ∧
      (read text = .ok (spaced 0 tokens) ∧ (spaced 0 tokens).map PlacedToken.token = tokens) ∧
      (⟨keyword .and, 14⟩ ∈ spaced 0 tokens ∧ ∃ before after,
        text.toList = before ++ ['a', 'n', 'd'] ++ after ∧ 14 = Text.bytes before) := by
  intro tokens text
  have hspell : ∀ token ∈ tokens, token.Spellable := by
    simp only [tokens, List.mem_cons, List.not_mem_nil, or_false, forall_eq_or_imp, forall_eq]
    have htag : (Term.tag "choir/alto").Spellable := by decide
    have hlink : (Term.link "a]b").Spellable := by decide
    exact ⟨trivial, htag, trivial, hlink, trivial⟩
  have hread := read_exact.2.2 tokens hspell
  have hkeyword : ⟨keyword .and, 14⟩ ∈ spaced 0 tokens := by decide
  exact ⟨hspell, hread, hkeyword, read_exact.2.1 text _ hread.1 _ hkeyword⟩

end Token
end RollCall

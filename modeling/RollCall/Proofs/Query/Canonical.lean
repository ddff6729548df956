import RollCall.Proofs.Query.Grammar
import RollCall.Proofs.Query.Spelling

/-!
# The canonical form of a query

Reading the canonical form of a query gives the query back exactly if all its terms can be written
(`parse_render_iff`). Whatever text a query is read from, its terms can be. What stands between the
brackets of a link is read as this link or not as a link at all (`parse_render_link_iff`).
-/

namespace RollCall

/-- All terms of the query can be written. -/
def Query.Spellable : Query → Prop
  | term t => t.Spellable
  | binary _ left right => left.Spellable ∧ right.Spellable

/-- A phrase of tokens that can be written stands for a query that can be. -/
theorem Derives.spellable {phrase : Phrase} {tokens : List PlacedToken} {query : Query}
    (h : Derives phrase tokens query) (htokens : ∀ placed ∈ tokens, placed.token.Spellable) :
    query.Spellable := by
  induction h with
  | term t position => exact htokens _ (List.mem_singleton_self _)
  | scope opened closed _ ih => exact ih fun placed hp => htokens placed (by simp [hp])
  | last _ ih => exact ih htokens
  | more operation position _ _ ihleft ihright =>
    exact ⟨ihleft fun placed hp => htokens placed (by simp [hp]),
      ihright fun placed hp => htokens placed (by simp [hp])⟩

namespace Query

theorem spellable_of_parse {text : String} {query : Query} (h : parse text = .ok query) :
    query.Spellable := by
  unfold parse at h
  split at h
  · simp at h
  · next tokens htokens =>
    have hspelled := Token.read_eq_ok_iff.1 htokens
    exact (ofTokens?_eq_ok_iff.1 h).spellable hspelled.spellable

/-- A token in front of a text that spells further tokens, without blanks between them. -/
theorem spelled_token {offset : Nat} {rest : List Char} {tokens : List PlacedToken} (token : Token)
    (hspell : token.Spellable) (hend : token.EndsBefore rest)
    (h : Spelled (offset + Text.bytes token.spelling) rest tokens) :
    Spelled offset (token.spelling ++ rest) (⟨token, offset⟩ :: tokens) := by
  have := @Spelled.token offset [] rest token tokens (by simp) hspell hend (by simpa using h)
  simpa using this

/-- A text that does not begin with a blank begins with the spelling of its first token. -/
theorem exists_of_spelled_cons {offset : Nat} {c : Char} {text : List Char}
    {tokens : List PlacedToken} (hc : Text.isBlank c = false) (h : Spelled offset (c :: text) tokens) :
    ∃ token rest others, tokens = ⟨token, offset⟩ :: others ∧ c :: text = token.spelling ++ rest ∧
      token.Spellable ∧ Spelled (offset + Text.bytes token.spelling) rest others := by
  generalize hchars : c :: text = chars at h
  cases h with
  | blanks hblanks =>
    have hblank := hblanks c (hchars ▸ List.mem_cons_self)
    rw [hc] at hblank
    cases hblank
  | @token _ blanks rest token others hblanks hspell _ hrest =>
    cases blanks with
    | nil => exact ⟨token, rest, others, rfl, rfl, hspell, hrest⟩
    | cons d blanks =>
      obtain ⟨rfl, -⟩ := List.cons.inj hchars
      have hblank := hblanks c List.mem_cons_self
      rw [hc] at hblank
      cases hblank

/-- The canonical form spells an operand that stands for the query. What comes behind it has to end
a tag, which the last term may be. -/
theorem exists_spelled_chars {query : Query} (h : query.Spellable) :
    ∀ (offset : Nat) (rest : List Char), (∀ c ∈ rest.head?, Token.isTagEnd c = true) →
      ∃ tokens, Derives .operand tokens query ∧
        ∀ behind, Spelled (offset + Text.bytes query.chars) rest behind →
          Spelled offset (query.chars ++ rest) (tokens ++ behind) := by
  induction query with
  | term t =>
    intro offset rest hrest
    refine ⟨[⟨.term t, offset⟩], .term t offset, fun behind hbehind => ?_⟩
    refine spelled_token (.term t) h ?_ hbehind
    cases t with
    | tag name => exact hrest
    | folder path => trivial
    | link target => trivial
  | binary operation left right ihleft ihright =>
    intro offset rest hrest
    -- where the left operand, the keyword, the right operand and the closing parenthesis begin
    let leftAt := offset + Text.bytes ['(']
    let keywordAt := leftAt + Text.bytes left.chars + ' '.utf8Size
    let rightAt := keywordAt + Text.bytes operation.keyword + ' '.utf8Size
    let closedAt := rightAt + Text.bytes right.chars
    obtain ⟨leftTokens, hleft, spelledLeft⟩ := ihleft h.1 leftAt
      (' ' :: (operation.keyword ++ ' ' :: (right.chars ++ ')' :: rest))) (by simp; decide)
    obtain ⟨rightTokens, hright, spelledRight⟩ := ihright h.2 rightAt (')' :: rest) (by simp; decide)
    refine ⟨⟨.opening, offset⟩ :: (leftTokens ++ ⟨.keyword operation, keywordAt⟩ :: rightTokens) ++
      [⟨.closing, closedAt⟩], .scope _ _ (.more _ _ hleft (.last hright)), fun behind hbehind => ?_⟩
    have hend : offset + Text.bytes (binary operation left right).chars =
        closedAt + Text.bytes [')'] := by
      simp only [closedAt, rightAt, keywordAt, leftAt, chars, Text.bytes_append, Text.bytes_cons,
        Text.bytes_nil]
      omega
    have hclosing : Spelled closedAt (')' :: rest) (⟨.closing, closedAt⟩ :: behind) :=
      spelled_token .closing trivial trivial (hend ▸ hbehind)
    have hkeyword : Spelled keywordAt (operation.keyword ++ ' ' :: (right.chars ++ ')' :: rest))
        (⟨.keyword operation, keywordAt⟩ :: (rightTokens ++ ⟨.closing, closedAt⟩ :: behind)) :=
      spelled_token (.keyword operation) trivial (by simp [Token.EndsBefore])
        ((spelledRight _ hclosing).cons_blank (by decide))
    have hopening := spelled_token .opening trivial trivial
      (spelledLeft _ (hkeyword.cons_blank (by decide)))
    simpa [chars, Token.spelling] using hopening

/-! ## The text of a link -/

/-- The tokens of a single term are the term alone, or parentheses stand around it. -/
theorem eq_singleton_or_opening {phrase : Phrase} {tokens : List PlacedToken} {t : Term}
    (h : Derives phrase tokens (term t)) :
    (∃ position, tokens = [⟨.term t, position⟩]) ∨
      ∃ position others, tokens = ⟨.opening, position⟩ :: others := by
  generalize hquery : term t = query at h
  induction h with
  | term other position =>
    cases hquery
    exact .inl ⟨position, rfl⟩
  | scope opened closed _ _ => exact .inr ⟨opened, _, rfl⟩
  | last _ ih => exact ih hquery
  | more operation position _ _ _ _ => cases hquery

theorem eq_nil_of_blanks {front behind blanks : List Char} {c : Char} (hc : Text.isBlank c = false)
    (hblanks : ∀ d ∈ blanks, Text.isBlank d = true) (h : front ++ [c] = behind ++ blanks) :
    blanks = [] := by
  rcases List.eq_nil_or_concat' blanks with rfl | ⟨blanks, d, rfl⟩
  · rfl
  · rw [← List.append_assoc] at h
    obtain rfl : c = d := List.singleton_inj.1 (List.append_inj' h rfl).2
    have hblank := hblanks c (by simp)
    rw [hc] at hblank
    cases hblank

/-- The brackets of a link enclose no other link, and nothing but blanks can stand behind them. -/
theorem eq_of_derives_link {offset : Nat} {text target : String} {tokens : List PlacedToken}
    (hderives : Derives .chain tokens (link target))
    (hspelled : Spelled offset (link text).chars tokens) :
    target = text ∧ (Term.link text).Spellable := by
  obtain ⟨token, rest, others, rfl, hchars, hspell, hrest⟩ :=
    exists_of_spelled_cons (by decide) hspelled
  rcases eq_singleton_or_opening hderives with ⟨position, htoken⟩ | ⟨position, _, htoken⟩
  · obtain ⟨⟨rfl, -⟩, rfl⟩ := htoken
    cases hrest with
    | blanks hblanks =>
      have hinner : text.toList ++ [']', ']'] = target.toList ++ [']', ']'] ++ rest :=
        (List.cons.inj (List.cons.inj hchars).2).2
      have hlast : (text.toList ++ [']']) ++ [']'] = (target.toList ++ [']', ']']) ++ rest := by
        rw [← hinner, List.append_assoc]
        rfl
      obtain rfl := eq_nil_of_blanks (by decide) hblanks hlast
      rw [List.append_nil] at hinner
      obtain rfl := String.toList_inj.1 (List.append_cancel_right hinner)
      exact ⟨rfl, hspell⟩
  · obtain ⟨⟨rfl, -⟩, -⟩ := htoken
    exact absurd (List.cons.inj hchars).1 (by decide)

/-- A text between brackets that is read as a link is the text of the link. -/
theorem parse_render_link_iff {text target : String} :
    parse (link text).render = .ok (link target) ↔ target = text ∧ (Term.link text).Spellable := by
  constructor
  · intro h
    unfold parse at h
    cases htokens : Token.read (link text).render with
    | error error =>
      rw [htokens] at h
      cases h
    | ok tokens =>
      rw [htokens] at h
      have hspelled := Token.read_eq_ok_iff.1 htokens
      rw [render, String.toList_ofList] at hspelled
      exact eq_of_derives_link (ofTokens?_eq_ok_iff.1 h) hspelled
  · rintro ⟨rfl, hspell⟩
    have hend : Spelled (0 + Text.bytes (link target).chars) [] [] := .blanks (by simp)
    have hspelled := spelled_token (.term (.link target)) hspell trivial hend
    rw [List.append_nil] at hspelled
    have htokens : Token.read (link target).render = .ok [⟨.term (.link target), 0⟩] := by
      rw [Token.read_eq_ok_iff, render, String.toList_ofList]
      exact hspelled
    rw [parse, htokens]
    exact ofTokens?_eq_ok_iff.2 (.last (.term (.link target) 0))

/-! ## Any query -/

/-- The canonical form of a query is read as the query exactly if all its terms can be written. A
query that was read has such terms, so that it is read from its canonical form again. -/
theorem parse_render_iff :
    (∀ query : Query, parse query.render = .ok query ↔ query.Spellable) ∧
      ∀ (text : String) (query : Query), parse text = .ok query →
        query.Spellable ∧ parse query.render = .ok query := by
  have hread : ∀ query : Query, query.Spellable → parse query.render = .ok query := by
    intro query hquery
    obtain ⟨tokens, hderives, hspelled⟩ := exists_spelled_chars hquery 0 [] (by simp)
    have htokens : Token.read query.render = .ok tokens := by
      rw [Token.read_eq_ok_iff, render, String.toList_ofList]
      simpa using hspelled [] (.blanks (by simp))
    rw [parse, htokens]
    exact ofTokens?_eq_ok_iff.2 (.last hderives)
  refine ⟨fun query => ⟨spellable_of_parse, hread query⟩, fun text query h => ?_⟩
  exact ⟨spellable_of_parse h, hread query (spellable_of_parse h)⟩

/-- A chain with a scope in it, and in the scope a link that holds a bracket. -/
theorem parse_render_scope :
    let query := binary .and (tag "team/core_2") (binary .or (folder "my people") (link "a]b"))
    parse "#team/core_2 and (\"my people\" or [[a]b]])" = .ok query ∧
      query.Spellable ∧ parse query.render = .ok query := by
  have h : parse "#team/core_2 and (\"my people\" or [[a]b]])" =
      .ok (binary .and (tag "team/core_2") (binary .or (folder "my people") (link "a]b"))) := by
    decide +kernel
  exact ⟨h, parse_render_iff.2 _ _ h⟩

end Query

end RollCall

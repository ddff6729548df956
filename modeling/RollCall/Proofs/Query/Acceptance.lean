import RollCall.Proofs.Query.Grammar

/-!
# Which tokens are a query

Reading tokens succeeds exactly on what the grammar derives, with the query of the derivation, and
fails on everything else (`ofTokens?_accepts_grammar`). Reading a scope has a fault for a token that
stands alone and has no query; that fault never occurs.
-/

namespace RollCall

/-! ## No token is reported for having no query -/

theorem Token.query?_eq_some_iff {token : Token} {query : Query} :
    token.query? = some query ↔ ∃ t, token = .term t ∧ query = .term t := by
  cases token <;> simp [query?, eq_comm]

theorem Token.leaf_eq_ok_iff {token : Token} {position : Nat} {query : Query} :
    token.leaf position = .ok query ↔ token.query? = some query := by
  cases token with
  | term t => simp [leaf, query?]
  | opening => simp [leaf, query?]
  | closing => simp [leaf, query?]
  | keyword operation => cases operation <;> simp [leaf, query?]

/-- The error reports a token that has no query where it has to stand for one. -/
def SyntaxError.ReportsNoLeaf (error : SyntaxError) : Prop :=
  ∃ (token : Token) (position : Nat), token.leaf position = .error error

theorem SyntaxError.ReportsNoLeaf.eq_unexpectedTerm {error : SyntaxError}
    (h : error.ReportsNoLeaf) : ∃ text position, error = .unexpectedTerm text position ∧
      text ∈ ["OpenParen", "CloseParen", "Keyword(And)", "Keyword(Or)"] := by
  obtain ⟨token, position, hleaf⟩ := h
  cases token with
  | term t => simp [Token.leaf] at hleaf
  | opening => exact ⟨_, position, (Except.error.inj hleaf).symm, by simp⟩
  | closing => exact ⟨_, position, (Except.error.inj hleaf).symm, by simp⟩
  | keyword operation =>
    cases operation with
    | and => exact ⟨_, position, (Except.error.inj hleaf).symm, by simp⟩
    | or => exact ⟨_, position, (Except.error.inj hleaf).symm, by simp⟩

/-- What a leaf is written like is the name of no token. -/
theorem not_reportsNoLeaf_leaf {token : Token} {position : Nat} {leaf : Query}
    (h : token.leaf position = .ok leaf) (place : Nat) :
    ¬ (SyntaxError.unexpectedTerm leaf.render place).ReportsNoLeaf := by
  intro hreports
  obtain ⟨text, _, herror, hnames⟩ := hreports.eq_unexpectedTerm
  obtain ⟨rfl, -⟩ := SyntaxError.unexpectedTerm.inj herror
  have hfirst : ∃ c ∈ ['#', '"', '['], leaf.render.toList.head? = some c := by
    obtain ⟨t, -, rfl⟩ := Token.query?_eq_some_iff.1 (Token.leaf_eq_ok_iff.1 h)
    cases t with
    | tag name => exact ⟨'#', by simp, by simp [Query.render, Query.chars, Term.chars]⟩
    | folder path => exact ⟨'"', by simp, by simp [Query.render, Query.chars, Term.chars]⟩
    | link target => exact ⟨'[', by simp, by simp [Query.render, Query.chars, Term.chars]⟩
  obtain ⟨c, hc, hhead⟩ := hfirst
  simp only [List.mem_cons, List.not_mem_nil, or_false] at hnames hc
  rcases hnames with hname | hname | hname | hname <;> rw [hname] at hhead <;>
    rcases hc with rfl | rfl | rfl <;> simp at hhead

/-- A scope that cannot be read is never at fault for a token without a query: such tokens are
parentheses and keywords, for which there are cases of their own. -/
theorem Scope.not_reportsNoLeaf_of_read {current : Option Query} {tokens : List PlacedToken}
    {error : SyntaxError} (h : Scope.read current tokens = .error error) :
    ¬ error.ReportsNoLeaf := by
  fun_induction Scope.read current tokens
  -- the scope is read
  case case6 | case7 | case11 | case15 => cases h
  -- a scope inside is at fault
  case case3 hread ih => cases h; exact ih hread
  case case5 hread _ ih => cases h; exact ih hread
  case case9 hread ih => cases h; exact ih hread
  case case14 hread ih => cases h; exact ih hread
  -- a fault of another kind
  case case1 | case4 | case8 | case10 =>
    intro hreports
    obtain ⟨text, position, herror, -⟩ := hreports.eq_unexpectedTerm
    simp [herror] at h
  case case2 =>
    intro hreports
    obtain ⟨text, position, herror, hnames⟩ := hreports.eq_unexpectedTerm
    have htext : text = "(" := by simp_all
    simp [htext] at hnames
  case case12 token position tokens hopening hclosing hkeyword leafError hleaf =>
    cases token with
    | term t => simp [Token.leaf] at hleaf
    | opening => exact absurd rfl hopening
    | closing => exact absurd rfl hclosing
    | keyword operation => exact absurd rfl (hkeyword operation)
  case case13 hleaf _ => exact Except.error.inj h ▸ not_reportsNoLeaf_leaf hleaf _

namespace Query

theorem not_reportsNoLeaf_of_ofTokens? {tokens : List PlacedToken} {error : SyntaxError}
    (h : ofTokens? tokens = .error error) : ¬ error.ReportsNoLeaf := by
  have hother : ∀ {fault : SyntaxError}, (∀ text position, fault ≠ .unexpectedTerm text position) →
      ¬ fault.ReportsNoLeaf := by
    intro fault hfault hreports
    obtain ⟨text, position, herror, -⟩ := hreports.eq_unexpectedTerm
    exact hfault text position herror
  unfold ofTokens? at h
  split at h
  · exact Except.error.inj h ▸ hother (by simp)
  · split at h
    · next hread => exact Except.error.inj h ▸ Scope.not_reportsNoLeaf_of_read hread
    · split at h
      · exact Except.error.inj h ▸ hother (by simp)
      · split at h
        · exact Except.error.inj h ▸ hother (by simp)
        · cases h

/-- Tokens are read as exactly the query that the grammar derives from them, and all other tokens are
refused. No token is refused for standing where a term has to although it has no query: the fault
that `Token.leaf` gives for such a token is never the fault of a text. -/
theorem ofTokens?_accepts_grammar (tokens : List PlacedToken) :
    (∀ query, ofTokens? tokens = .ok query ↔ Derives .chain tokens query) ∧
      ((∃ error, ofTokens? tokens = .error error) ↔ ¬ ∃ query, Derives .chain tokens query) ∧
      ¬ ∃ (token : Token) (position : Nat) (error : SyntaxError),
        token.leaf position = .error error ∧ ofTokens? tokens = .error error := by
  refine ⟨fun query => ofTokens?_eq_ok_iff, ⟨?_, ?_⟩, ?_⟩
  · rintro ⟨error, herror⟩ ⟨query, hderives⟩
    rw [ofTokens?_eq_ok_iff.2 hderives] at herror
    cases herror
  · intro hnone
    cases hread : ofTokens? tokens with
    | error error => exact ⟨error, rfl⟩
    | ok query => exact absurd ⟨query, ofTokens?_eq_ok_iff.1 hread⟩ hnone
  · rintro ⟨token, position, error, hleaf, herror⟩
    exact not_reportsNoLeaf_of_ofTokens? herror ⟨token, position, hleaf⟩

end Query
end RollCall

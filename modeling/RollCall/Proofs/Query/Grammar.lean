import RollCall.Query.Parser
import Mathlib.Tactic.Common

/-!
# The grammar of queries

The grammar as a relation between tokens and queries, in which a chain groups to the right, and the
proof that reading tokens gives exactly what the grammar derives (`ofTokens?_eq_ok_iff`).

A keyword makes `Scope.read` take the rest of the scope together with its closing parenthesis, so
that what is left of a scope depends on what has been read of it. `Scope.Holds` says what may be left
in both cases; it is what the induction over the tokens carries.
-/

namespace RollCall

/-- The two phrases of the grammar. -/
inductive Phrase where
  /-- A term or a chain between parentheses. -/
  | operand
  /-- Operands with keywords between them. -/
  | chain

/-- The tokens are a phrase that stands for the query. -/
inductive Derives : Phrase → List PlacedToken → Query → Prop where
  /-- A term stands for itself. -/
  | term (t : Term) (position : Nat) : Derives .operand [⟨.term t, position⟩] (.term t)
  /-- Parentheses around a chain. -/
  | scope {tokens : List PlacedToken} {query : Query} (opened closed : Nat)
      (h : Derives .chain tokens query) :
      Derives .operand (⟨.opening, opened⟩ :: tokens ++ [⟨.closing, closed⟩]) query
  /-- The last operand of a chain. -/
  | last {tokens : List PlacedToken} {query : Query} (h : Derives .operand tokens query) :
      Derives .chain tokens query
  /-- An operand and a keyword, whose right side is the whole rest of the chain. -/
  | more {tokens rest : List PlacedToken} {left right : Query} (operation : Operation)
      (position : Nat) (hleft : Derives .operand tokens left) (hright : Derives .chain rest right) :
      Derives .chain (tokens ++ ⟨.keyword operation, position⟩ :: rest)
        (.binary operation left right)

theorem Derives.ne_nil {phrase : Phrase} {tokens : List PlacedToken} {query : Query}
    (h : Derives phrase tokens query) : tokens ≠ [] := by
  induction h with
  | term => simp
  | scope => simp
  | last _ ih => exact ih
  | more => simp

namespace Scope

variable {current query : Option Query} {tokens rest : List PlacedToken} {closedAt position : Nat}

/-- Reading the rest of a scope succeeds with these results. -/
def Reads (current : Option Query) (tokens : List PlacedToken) (query : Option Query)
    (closedAt : Nat) (rest : List PlacedToken) : Prop :=
  ∃ h, Scope.read current tokens = .ok ⟨query, closedAt, rest, h⟩

/-! ## What each token does -/

theorem not_reads_nil : ¬ Reads current [] query closedAt rest := by
  rintro ⟨_, h⟩
  simp [Scope.read] at h

theorem reads_closing_iff :
    Reads current (⟨.closing, position⟩ :: tokens) query closedAt rest ↔
      query = current ∧ closedAt = position ∧ rest = tokens := by
  constructor
  · rintro ⟨_, h⟩
    simp only [Scope.read, Except.ok.injEq, Scope.mk.injEq] at h
    exact ⟨h.1.symm, h.2.1.symm, h.2.2.symm⟩
  · rintro ⟨rfl, rfl, rfl⟩
    exact ⟨Nat.lt_succ_self _, by rw [Scope.read]⟩

theorem reads_opening_iff :
    Reads current (⟨.opening, position⟩ :: tokens) query closedAt rest ↔
      current = none ∧ ∃ inner innerClosed innerRest,
        Reads none tokens (some inner) innerClosed innerRest ∧
          Reads (some inner) innerRest query closedAt rest := by
  constructor
  · rintro ⟨_, h⟩
    cases current with
    | some left => simp [Scope.read] at h
    | none =>
      rw [Scope.read] at h
      split at h
      · simp at h
      · next inner hinner =>
        split at h
        · simp at h
        · next q hq =>
          split at h
          · simp at h
          · next outer houter =>
            simp only [Except.ok.injEq, Scope.mk.injEq] at h
            obtain ⟨rfl, rfl, rfl⟩ := h
            exact ⟨rfl, q, inner.closedAt, inner.rest, ⟨inner.shorter, by rw [hinner, ← hq]⟩,
              outer.shorter, houter⟩
  · rintro ⟨rfl, inner, innerClosed, innerRest, ⟨hi, hinner⟩, ho, houter⟩
    refine ⟨Nat.lt_succ_of_lt (Nat.lt_trans ho hi), ?_⟩
    rw [Scope.read]
    simp only [hinner, houter]

theorem reads_keyword_iff {operation : Operation} :
    Reads current (⟨.keyword operation, position⟩ :: tokens) query closedAt rest ↔
      ∃ left right, current = some left ∧ Reads none tokens (some right) closedAt rest ∧
        query = some (.binary operation left right) := by
  constructor
  · rintro ⟨_, h⟩
    cases current with
    | none => simp [Scope.read] at h
    | some left =>
      rw [Scope.read] at h
      split at h
      · simp at h
      · next scope hscope =>
        split at h
        · simp at h
        · next right hright =>
          simp only [Except.ok.injEq, Scope.mk.injEq] at h
          obtain ⟨rfl, rfl, rfl⟩ := h
          exact ⟨left, right, rfl, ⟨scope.shorter, by rw [hscope, ← hright]⟩, rfl⟩
  · rintro ⟨left, right, rfl, ⟨hs, hscope⟩, rfl⟩
    refine ⟨Nat.lt_succ_of_lt hs, ?_⟩
    rw [Scope.read]
    simp only [hscope]

theorem reads_term_iff {t : Term} :
    Reads current (⟨.term t, position⟩ :: tokens) query closedAt rest ↔
      current = none ∧ Reads (some (.term t)) tokens query closedAt rest := by
  constructor
  · rintro ⟨_, h⟩
    cases current with
    | some left => simp [Scope.read, Token.leaf] at h
    | none =>
      simp only [Scope.read, Token.leaf] at h
      split at h
      · simp at h
      · next scope hscope =>
        simp only [Except.ok.injEq, Scope.mk.injEq] at h
        obtain ⟨rfl, rfl, rfl⟩ := h
        exact ⟨rfl, scope.shorter, hscope⟩
  · rintro ⟨rfl, hs, hscope⟩
    refine ⟨Nat.lt_succ_of_lt hs, ?_⟩
    simp only [Scope.read, Token.leaf, hscope]

/-! ## Scopes and chains -/

/-- What the rest of a scope may be, and the query of the scope. Behind an operand stands nothing or
a keyword and a chain; in a scope of which nothing has been read stands nothing or a chain. -/
def Holds : Option Query → List PlacedToken → Option Query → Prop
  | none, body, query => (body = [] ∧ query = none) ∨ ∃ q, query = some q ∧ Derives .chain body q
  | some left, body, query => (body = [] ∧ query = some left) ∨
      ∃ operation position chain right, body = ⟨.keyword operation, position⟩ :: chain ∧
        Derives .chain chain right ∧ query = some (.binary operation left right)

/-- An operand in front of what may stand behind it is a chain. -/
theorem Holds.of_operand {left : Query} {operand body : List PlacedToken}
    (h : Holds (some left) body query) (hleft : Derives .operand operand left) :
    Holds none (operand ++ body) query := by
  rcases h with ⟨rfl, rfl⟩ | ⟨operation, position, chain, right, rfl, hright, rfl⟩
  · exact .inr ⟨left, rfl, by simpa using .last hleft⟩
  · exact .inr ⟨_, rfl, .more operation position hleft hright⟩

/-- A scope that is read up to its closing parenthesis is what the grammar has there. -/
theorem holds_of_reads (h : Reads current tokens query closedAt rest) :
    ∃ body, tokens = body ++ ⟨.closing, closedAt⟩ :: rest ∧ Holds current body query := by
  induction hn : tokens.length using Nat.strongRecOn generalizing current tokens query closedAt
    rest with
  | ind n ih =>
    subst hn
    match tokens with
    | [] => exact absurd h not_reads_nil
    | ⟨.closing, position⟩ :: tokens =>
      obtain ⟨rfl, rfl, rfl⟩ := reads_closing_iff.1 h
      refine ⟨[], rfl, ?_⟩
      cases query with
      | none => exact .inl ⟨rfl, rfl⟩
      | some q => exact .inl ⟨rfl, rfl⟩
    | ⟨.term t, position⟩ :: tokens =>
      obtain ⟨rfl, hrest⟩ := reads_term_iff.1 h
      obtain ⟨body, rfl, hbody⟩ := ih _ (Nat.lt_succ_self _) hrest rfl
      exact ⟨_, rfl, hbody.of_operand (.term t position)⟩
    | ⟨.opening, position⟩ :: tokens =>
      obtain ⟨rfl, inner, innerClosed, innerRest, hinner, houter⟩ := reads_opening_iff.1 h
      obtain ⟨chain, rfl, hchain⟩ := ih _ (Nat.lt_succ_self _) hinner rfl
      obtain ⟨body, rfl, hbody⟩ := ih _ (by simp only [List.length_cons, List.length_append]; omega)
        houter rfl
      rcases hchain with ⟨-, hnone⟩ | ⟨q, hq, hderives⟩
      · exact absurd hnone (by simp)
      · obtain rfl := Option.some.inj hq
        refine ⟨_, ?_, hbody.of_operand (.scope position innerClosed hderives)⟩
        simp
    | ⟨.keyword operation, position⟩ :: tokens =>
      obtain ⟨left, right, rfl, hright, rfl⟩ := reads_keyword_iff.1 h
      obtain ⟨chain, rfl, hchain⟩ := ih _ (Nat.lt_succ_self _) hright rfl
      rcases hchain with ⟨-, hnone⟩ | ⟨q, hq, hderives⟩
      · exact absurd hnone (by simp)
      · obtain rfl := Option.some.inj hq
        exact ⟨_, rfl, .inr ⟨operation, position, chain, right, rfl, hderives, rfl⟩⟩

/-- A derived phrase is read: an operand leaves the rest of its scope to be read, a chain is read
together with the parenthesis that closes it. -/
theorem reads_of_derives {phrase : Phrase} {q : Query} (h : Derives phrase tokens q) :
    match phrase with
    | .operand => ∀ {behind query closedAt rest}, Reads (some q) behind query closedAt rest →
        Reads none (tokens ++ behind) query closedAt rest
    | .chain => ∀ closedAt rest,
        Reads none (tokens ++ ⟨.closing, closedAt⟩ :: rest) (some q) closedAt rest := by
  induction h with
  | term t position =>
    intro behind query closedAt rest hbehind
    exact reads_term_iff.2 ⟨rfl, hbehind⟩
  | @scope tokens q opened closed _ ih =>
    intro behind query closedAt rest hbehind
    have hsplit : ⟨.opening, opened⟩ :: tokens ++ [⟨.closing, closed⟩] ++ behind =
        (⟨.opening, opened⟩ : PlacedToken) :: (tokens ++ ⟨.closing, closed⟩ :: behind) := by simp
    rw [hsplit]
    exact reads_opening_iff.2 ⟨rfl, q, closed, behind, ih closed behind, hbehind⟩
  | last _ ih =>
    intro closedAt rest
    exact ih (reads_closing_iff.2 ⟨rfl, rfl, rfl⟩)
  | @more tokens chain left right operation position _ _ ihleft ihright =>
    intro closedAt rest
    rw [List.append_assoc]
    exact ihleft (reads_keyword_iff.2 ⟨left, right, rfl, ihright closedAt rest, rfl⟩)

end Scope

/-- The tokens that are read as a query are those that the grammar derives it from. -/
theorem Query.ofTokens?_eq_ok_iff {tokens : List PlacedToken} {query : Query} :
    Query.ofTokens? tokens = .ok query ↔ Derives .chain tokens query := by
  constructor
  · intro h
    unfold Query.ofTokens? at h
    split at h
    · simp at h
    · next last _ =>
      split at h
      · simp at h
      · next scope hscope =>
        split at h
        · simp at h
        · next hrest =>
          split at h
          · simp at h
          · next q hq =>
            obtain rfl : q = query := Except.ok.inj h
            have hreads : Scope.Reads none _ (some q) scope.closedAt scope.rest :=
              ⟨scope.shorter, by rw [hscope, ← hq]⟩
            obtain ⟨body, hsplit, hbody⟩ := Scope.holds_of_reads hreads
            rw [not_not.1 hrest] at hsplit
            have htokens : tokens = body := List.append_inj_left' hsplit rfl
            rcases hbody with ⟨-, hnone⟩ | ⟨q', hq', hderives⟩
            · exact absurd hnone (by simp)
            · rwa [htokens, Option.some.inj hq']
  · intro h
    unfold Query.ofTokens?
    obtain ⟨last, hlast⟩ : ∃ last, tokens.getLast? = some last :=
      ⟨_, List.getLast?_eq_some_getLast h.ne_nil⟩
    obtain ⟨hshorter, hread⟩ := Scope.reads_of_derives h (last.position + 1) []
    simp [hlast, hread]

end RollCall

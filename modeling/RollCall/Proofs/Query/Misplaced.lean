import RollCall.Proofs.Query.Acceptance
import Mathlib.Data.List.Infix

/-!
# Misplaced tokens

What a fault in the order of the tokens says about them (`SyntaxError.OfTokens`), and that it is so for
every list of tokens that is refused (`ofTokens_of_ofTokens?`). Positions are those of tokens of the
list: the parenthesis that closes the whole text is never reported.

The induction along `Scope.read` knows what stands in front of the tokens that are left: an operand
exactly if something of the scope has been read (`Scope.Behind`).
-/

namespace RollCall

/-! ## Parentheses -/

namespace Token

/-- Number of opening parentheses. -/
def openings (tokens : List PlacedToken) : Nat := tokens.countP (·.token = .opening)

/-- Number of closing parentheses. -/
def closings (tokens : List PlacedToken) : Nat := tokens.countP (·.token = .closing)

/-- Every parenthesis is closed, and none is closed before it is opened. -/
structure Balanced (tokens : List PlacedToken) : Prop where
  /-- As many parentheses are closed as are opened. -/
  even : closings tokens = openings tokens
  /-- From the front up to any place, no more are closed than are opened. -/
  opened_first : ∀ n, closings (tokens.take n) ≤ openings (tokens.take n)

variable {a b tokens : List PlacedToken}

@[simp] theorem openings_append : openings (a ++ b) = openings a + openings b :=
  List.countP_append

@[simp] theorem closings_append : closings (a ++ b) = closings a + closings b :=
  List.countP_append

theorem openings_cons (placed : PlacedToken) :
    openings (placed :: tokens) = openings tokens + if placed.token = .opening then 1 else 0 := by
  simp [openings, List.countP_cons]

theorem closings_cons (placed : PlacedToken) :
    closings (placed :: tokens) = closings tokens + if placed.token = .closing then 1 else 0 := by
  simp [closings, List.countP_cons]

theorem balanced_nil : Balanced [] := ⟨rfl, fun _ => by simp [openings, closings]⟩

theorem Balanced.append (ha : Balanced a) (hb : Balanced b) : Balanced (a ++ b) := by
  refine ⟨by rw [closings_append, openings_append, ha.even, hb.even], fun n => ?_⟩
  have hfront := ha.opened_first n
  have hback := hb.opened_first (n - a.length)
  rw [List.take_append, closings_append, openings_append]
  omega

theorem Balanced.cons (h : Balanced tokens) {placed : PlacedToken} (hopening : placed.token ≠ .opening)
    (hclosing : placed.token ≠ .closing) : Balanced (placed :: tokens) := by
  have hopenings : ∀ list, openings (placed :: list) = openings list := fun list => by
    rw [openings_cons, if_neg hopening, Nat.add_zero]
  have hclosings : ∀ list, closings (placed :: list) = closings list := fun list => by
    rw [closings_cons, if_neg hclosing, Nat.add_zero]
  refine ⟨by rw [hopenings, hclosings, h.even], fun n => ?_⟩
  cases n with
  | zero => simp [openings, closings]
  | succ n =>
    rw [List.take_succ_cons, hopenings, hclosings]
    exact h.opened_first n

theorem Balanced.scope (h : Balanced tokens) (opened closed : Nat) :
    Balanced (⟨.opening, opened⟩ :: tokens ++ [⟨.closing, closed⟩]) := by
  have hlast : ∀ m, closings ([⟨.closing, closed⟩].take m) ≤ 1 := by
    intro m
    cases m <;> simp [closings]
  refine ⟨?_, fun n => ?_⟩
  · rw [closings_append, openings_append, closings_cons, openings_cons, h.even]
    simp [openings, closings]
  · cases n with
    | zero => simp [openings, closings]
    | succ n =>
      have hinner := h.opened_first n
      have hend := hlast (n - tokens.length)
      rw [List.cons_append, List.take_succ_cons, openings_cons, closings_cons, List.take_append,
        closings_append, openings_append]
      simp only [if_true, reduceCtorEq, if_false]
      omega

end Token

open Token

theorem Derives.balanced {phrase : Phrase} {tokens : List PlacedToken} {query : Query}
    (h : Derives phrase tokens query) : Balanced tokens := by
  induction h with
  | term t position => exact balanced_nil.cons (by simp) (by simp)
  | scope opened closed _ ih => exact ih.scope opened closed
  | last _ ih => exact ih
  | more operation position _ _ ihleft ihright =>
    exact ihleft.append (ihright.cons (by simp) (by simp))

namespace Scope

variable {current : Option Query} {tokens all before : List PlacedToken} {error : SyntaxError}

theorem Holds.balanced {query : Option Query} {body : List PlacedToken}
    (h : Holds current body query) : Balanced body := by
  cases current with
  | none =>
    rcases h with ⟨rfl, -⟩ | ⟨q, -, hderives⟩
    · exact balanced_nil
    · exact hderives.balanced
  | some left =>
    rcases h with ⟨rfl, -⟩ | ⟨operation, position, chain, right, rfl, hderives, -⟩
    · exact balanced_nil
    · exact hderives.balanced.cons (by simp) (by simp)

/-- A scope that is read consists of balanced tokens and the parenthesis that closes it. -/
theorem exists_body_of_read {scope : Scope tokens} (h : Scope.read current tokens = .ok scope) :
    ∃ body, tokens = body ++ ⟨.closing, scope.closedAt⟩ :: scope.rest ∧ Balanced body ∧
      Holds current body scope.query := by
  have hreads : Reads current tokens scope.query scope.closedAt scope.rest := ⟨scope.shorter, h⟩
  obtain ⟨body, htokens, hholds⟩ := holds_of_reads hreads
  exact ⟨body, htokens, hholds.balanced, hholds⟩

/-- Nothing stands in a scope that has no query. -/
theorem eq_closing_of_read {scope : Scope tokens} (h : Scope.read none tokens = .ok scope)
    (hquery : scope.query = none) : tokens = ⟨.closing, scope.closedAt⟩ :: scope.rest := by
  obtain ⟨body, htokens, -, hholds⟩ := exists_body_of_read h
  rw [hquery] at hholds
  rcases hholds with ⟨rfl, -⟩ | ⟨q, hq, -⟩
  · exact htokens
  · cases hq

theorem head?_of_read {scope : Scope tokens} (h : Scope.read none tokens = .ok scope)
    (hquery : scope.query = none) : ∀ next ∈ tokens.head?, next.token = .closing := by
  rw [eq_closing_of_read h hquery]
  intro next hnext
  obtain rfl : (⟨.closing, scope.closedAt⟩ : PlacedToken) = next := by simpa using hnext
  rfl

end Scope

/-! ## What a fault says -/

/-- The token is an operand or ends one. -/
def Token.EndsOperand (token : Token) : Prop := token = .closing ∨ ∃ t, token = .term t

/-- An operand is missing behind the token. -/
def Token.AsksOperand (token : Token) : Prop := token = .opening ∨ ∃ operation, token = .keyword operation

/-- What a fault says about the order of the tokens. The faults of single tokens say nothing about
it. -/
def SyntaxError.OfTokens (tokens : List PlacedToken) : SyntaxError → Prop
  | emptyQuery => tokens = [] ∨ ∃ before opened after, tokens = before ++ ⟨.opening, opened⟩ :: after ∧
      ∀ next ∈ after.head?, next.token = .closing
  | unclosedParenthesis => closings tokens < openings tokens
  | unexpectedClosing position => ∃ before after,
      tokens = before ++ ⟨.closing, position⟩ :: after ∧ closings before = openings before ∧
        ∀ front, front <+: before → closings front ≤ openings front
  | missingOperand operation .left position => ∃ before after,
      tokens = before ++ ⟨.keyword operation, position⟩ :: after ∧
        ∀ last ∈ before.getLast?, last.token.AsksOperand
  | missingOperand operation .right position => ∃ before after,
      tokens = before ++ ⟨.keyword operation, position⟩ :: after ∧
        ∀ next ∈ after.head?, next.token = .closing
  | unexpectedTerm text position => ∃ before token after,
      tokens = before ++ ⟨token, position⟩ :: after ∧ token.spelling = text.toList ∧
        (token = .opening ∨ ∃ t, token = .term t) ∧
        ∃ last ∈ before.getLast?, last.token.EndsOperand
  | invalidCharacter .. | invalidTag .. | unterminatedFolder .. | unterminatedLink ..
  | invalidKeyword .. => False

/-- A token that is neither a parenthesis nor a keyword is a term. -/
theorem Token.exists_eq_term {token : Token} (hopening : token ≠ .opening)
    (hclosing : token ≠ .closing) (hkeyword : ∀ operation, token ≠ .keyword operation) :
    ∃ t, token = .term t := by
  cases token with
  | term t => exact ⟨t, rfl⟩
  | opening => exact absurd rfl hopening
  | closing => exact absurd rfl hclosing
  | keyword operation => exact absurd rfl (hkeyword operation)

namespace Scope

/-- What stands in front of the tokens that are left of a scope, given what has been read of it. -/
def Behind (before : List PlacedToken) : Option Query → Prop
  | none => ∀ last ∈ before.getLast?, last.token.AsksOperand
  | some _ => ∃ last ∈ before.getLast?, last.token.EndsOperand

theorem behind_none {placed : PlacedToken} (h : placed.token.AsksOperand) :
    Behind (before ++ [placed]) none := by
  intro last hlast
  obtain rfl : placed = last := by simpa using hlast
  exact h

theorem behind_some {placed : PlacedToken} {left : Query} (h : placed.token.EndsOperand) :
    Behind (before ++ [placed]) (some left) :=
  ⟨placed, by simp, h⟩

/-- A fault other than an unclosed parenthesis tells the truth about all tokens, those in front of the
scope included. -/
theorem ofTokens_of_read (h : Scope.read current tokens = .error error)
    (hall : all = before ++ tokens) (hbehind : Behind before current) :
    error = .unclosedParenthesis ∨ error.OfTokens all := by
  fun_induction Scope.read current tokens generalizing before
  -- the scope is read
  case case6 | case7 | case11 | case15 => cases h
  case case1 => exact .inl (Except.error.inj h).symm
  case case2 position tokens left =>
    obtain rfl := Except.error.inj h
    exact .inr ⟨before, .opening, tokens, hall, rfl, .inl rfl, hbehind⟩
  -- a scope inside, behind its parenthesis
  case case3 position tokens innerError hread ih =>
    obtain rfl := Except.error.inj h
    exact ih hread (hall.trans (List.append_cons ..)) (behind_none (.inl rfl))
  case case4 position tokens inner hread hquery ih =>
    obtain rfl := Except.error.inj h
    exact .inr (.inr ⟨before, position, tokens, hall, head?_of_read hread hquery⟩)
  case case5 position tokens inner hread query hquery outerError houter ihinner ihouter =>
    obtain rfl := Except.error.inj h
    obtain ⟨body, htokens, -⟩ := exists_body_of_read hread
    have hsplit : before ++ ⟨.opening, position⟩ :: tokens =
        (before ++ ⟨.opening, position⟩ :: body) ++ ⟨.closing, inner.closedAt⟩ :: inner.rest := by
      simp [← htokens]
    exact ihouter houter ((hall.trans hsplit).trans (List.append_cons ..)) (behind_some (.inl rfl))
  case case8 operation position tokens =>
    obtain rfl := Except.error.inj h
    exact .inr ⟨before, tokens, hall, hbehind⟩
  case case9 operation position tokens left rightError hread ih =>
    obtain rfl := Except.error.inj h
    exact ih hread (hall.trans (List.append_cons ..)) (behind_none (.inr ⟨operation, rfl⟩))
  case case10 operation position tokens left scope hread hquery ih =>
    obtain rfl := Except.error.inj h
    exact .inr ⟨before, tokens, hall, head?_of_read hread hquery⟩
  case case12 token position tokens hopening hclosing hkeyword leafError hleaf =>
    obtain ⟨t, rfl⟩ := Token.exists_eq_term hopening hclosing hkeyword
    cases hleaf
  case case13 token position tokens hopening hclosing hkeyword leaf hleaf left =>
    obtain rfl := Except.error.inj h
    obtain ⟨t, rfl⟩ := Token.exists_eq_term hopening hclosing hkeyword
    obtain rfl := Except.ok.inj hleaf
    refine .inr ⟨before, .term t, tokens, hall, ?_, .inr ⟨t, rfl⟩, hbehind⟩
    simp [Query.render, Query.chars, Token.spelling]
  case case14 token position tokens hopening hclosing hkeyword leaf hleaf scopeError hread ih =>
    obtain rfl := Except.error.inj h
    have hterm := Token.exists_eq_term hopening hclosing hkeyword
    exact ih hread (hall.trans (List.append_cons ..)) (behind_some (.inr hterm))

/-- Where a parenthesis stays open, no more are closed than are opened in what is left. -/
theorem closings_le_openings_of_read
    (h : Scope.read current tokens = .error .unclosedParenthesis) :
    closings tokens ≤ openings tokens := by
  fun_induction Scope.read current tokens
  -- the scope is read
  case case6 | case7 | case11 | case15 => cases h
  -- a fault of another kind
  case case2 | case4 | case8 | case10 | case13 => cases h
  case case1 => exact Nat.le_refl 0
  case case3 position tokens innerError hread ih =>
    obtain rfl := Except.error.inj h
    have hinner := ih hread
    rw [openings_cons, closings_cons, if_neg (by simp)]
    omega
  case case5 position tokens inner hread query hquery outerError houter ihinner ihouter =>
    obtain rfl := Except.error.inj h
    obtain ⟨body, htokens, hbalanced, -⟩ := exists_body_of_read hread
    have hrest := ihouter houter
    have heven := hbalanced.even
    have hclosings : closings tokens = closings body + (closings inner.rest + 1) := by
      conv_lhs => rw [htokens]
      rw [closings_append, closings_cons, if_pos rfl]
    have hopenings : openings tokens = openings body + openings inner.rest := by
      conv_lhs => rw [htokens]
      rw [openings_append, openings_cons, if_neg (by simp), Nat.add_zero]
    rw [openings_cons, closings_cons, if_pos rfl, if_neg (by simp)]
    omega
  case case9 operation position tokens left rightError hread ih =>
    obtain rfl := Except.error.inj h
    have hright := ih hread
    rw [openings_cons, closings_cons, if_neg (by simp), if_neg (by simp)]
    omega
  case case12 token position tokens hopening hclosing hkeyword leafError hleaf =>
    obtain ⟨t, rfl⟩ := Token.exists_eq_term hopening hclosing hkeyword
    cases hleaf
  case case14 token position tokens hopening hclosing hkeyword leaf hleaf scopeError hread ih =>
    obtain rfl := Except.error.inj h
    have hscope := ih hread
    rw [openings_cons, closings_cons, if_neg hopening, if_neg hclosing]
    omega

/-- Inside a scope every closing parenthesis closes it. -/
theorem ne_unexpectedClosing_of_read (h : Scope.read current tokens = .error error) (position : Nat) :
    error ≠ .unexpectedClosing position := by
  fun_induction Scope.read current tokens
  -- the scope is read
  case case6 | case7 | case11 | case15 => cases h
  -- a scope inside is at fault
  case case3 hread ih => cases h; exact ih hread
  case case5 hread _ ih => cases h; exact ih hread
  case case9 hread ih => cases h; exact ih hread
  case case14 hread ih => cases h; exact ih hread
  -- a fault of another kind
  case case1 | case2 | case4 | case8 | case10 | case13 => exact Except.error.inj h ▸ by simp
  case case12 token _ _ hopening hclosing hkeyword leafError hleaf =>
    obtain ⟨t, rfl⟩ := Token.exists_eq_term hopening hclosing hkeyword
    cases hleaf

end Scope

/-! ## All tokens -/

/-- A token that is no closing parenthesis stands in front of the one at the end. -/
theorem exists_eq_append_of_closing {tokens before after : List PlacedToken} {placed : PlacedToken}
    {closed : Nat} (hplaced : placed.token ≠ .closing)
    (h : tokens ++ [⟨.closing, closed⟩] = before ++ placed :: after) :
    ∃ rest, after = rest ++ [⟨.closing, closed⟩] ∧ tokens = before ++ placed :: rest := by
  rcases List.eq_nil_or_concat' after with rfl | ⟨rest, last, rfl⟩
  · obtain ⟨-, hlast⟩ := List.append_inj' h rfl
    obtain rfl : (⟨.closing, closed⟩ : PlacedToken) = placed := by simpa using hlast
    exact absurd rfl hplaced
  · rw [← List.cons_append, ← List.append_assoc] at h
    obtain ⟨htokens, hlast⟩ := List.append_inj' h rfl
    exact ⟨rest, by rw [hlast], htokens⟩

theorem head?_append_of_closing {rest : List PlacedToken} {closed : Nat}
    (h : ∀ next ∈ (rest ++ [(⟨.closing, closed⟩ : PlacedToken)]).head?, next.token = .closing) :
    ∀ next ∈ rest.head?, next.token = .closing := by
  intro next hnext
  refine h next ?_
  rw [List.head?_append, Option.mem_def.1 hnext]
  rfl

/-- What a fault says about the tokens and the parenthesis behind them, it says about the tokens. -/
theorem SyntaxError.OfTokens.of_append {error : SyntaxError} {tokens : List PlacedToken} {closed : Nat}
    (h : error.OfTokens (tokens ++ [⟨.closing, closed⟩])) (hunclosed : error ≠ .unclosedParenthesis)
    (hunexpected : ∀ position, error ≠ .unexpectedClosing position) : error.OfTokens tokens := by
  cases error with
  | emptyQuery =>
    rcases h with hnil | ⟨before, opened, after, hsplit, hnext⟩
    · simp at hnil
    · obtain ⟨rest, rfl, rfl⟩ := exists_eq_append_of_closing (by simp) hsplit
      exact .inr ⟨before, opened, rest, rfl, head?_append_of_closing hnext⟩
  | unclosedParenthesis => exact absurd rfl hunclosed
  | unexpectedClosing position => exact absurd rfl (hunexpected position)
  | missingOperand operation side position =>
    cases side with
    | left =>
      obtain ⟨before, after, hsplit, hlast⟩ := h
      obtain ⟨rest, rfl, rfl⟩ := exists_eq_append_of_closing (by simp) hsplit
      exact ⟨before, rest, rfl, hlast⟩
    | right =>
      obtain ⟨before, after, hsplit, hnext⟩ := h
      obtain ⟨rest, rfl, rfl⟩ := exists_eq_append_of_closing (by simp) hsplit
      exact ⟨before, rest, rfl, head?_append_of_closing hnext⟩
  | unexpectedTerm text position =>
    obtain ⟨before, token, after, hsplit, hspelling, htoken, hlast⟩ := h
    have hclosing : token ≠ .closing := by
      rcases htoken with rfl | ⟨t, rfl⟩ <;> simp
    obtain ⟨rest, rfl, rfl⟩ := exists_eq_append_of_closing hclosing hsplit
    exact ⟨before, token, rest, rfl, hspelling, htoken, hlast⟩
  | invalidCharacter => exact h.elim
  | invalidTag => exact h.elim
  | unterminatedFolder => exact h.elim
  | unterminatedLink => exact h.elim
  | invalidKeyword => exact h.elim

namespace Query

/-- What stands in front of a parenthesis that is closed but never opened, where another one stands
behind it. -/
theorem ofTokens_unexpectedClosing {tokens : List PlacedToken} {closed : Nat}
    {scope : Scope (tokens ++ [⟨.closing, closed⟩])}
    (h : Scope.read none (tokens ++ [⟨.closing, closed⟩]) = .ok scope) (hrest : scope.rest ≠ []) :
    (SyntaxError.unexpectedClosing scope.closedAt).OfTokens tokens := by
  obtain ⟨body, hsplit, hbalanced, -⟩ := Scope.exists_body_of_read h
  obtain ⟨rest, last, hconcat⟩ := (List.eq_nil_or_concat' scope.rest).resolve_left hrest
  rw [hconcat, ← List.cons_append, ← List.append_assoc] at hsplit
  obtain ⟨htokens, -⟩ := List.append_inj' hsplit rfl
  refine ⟨body, rest, htokens, hbalanced.even, fun front hfront => ?_⟩
  rw [List.prefix_iff_eq_take.1 hfront]
  exact hbalanced.opened_first front.length

/-- A list of tokens that is refused is as the fault says. -/
theorem ofTokens_of_ofTokens? {tokens : List PlacedToken} {error : SyntaxError}
    (h : ofTokens? tokens = .error error) : error.OfTokens tokens := by
  unfold ofTokens? at h
  split at h
  · next hnone =>
    obtain rfl := Except.error.inj h
    exact .inl (List.getLast?_eq_none_iff.1 hnone)
  · next last _ =>
    split at h
    · next readError hread =>
      obtain rfl := Except.error.inj h
      by_cases hunclosed : readError = .unclosedParenthesis
      · subst hunclosed
        have hle := Scope.closings_le_openings_of_read hread
        rw [closings_append, openings_append] at hle
        have hclosing : closings [⟨.closing, last.position + 1⟩] = 1 := by simp [closings]
        have hopening : openings [⟨.closing, last.position + 1⟩] = 0 := by simp [openings]
        rw [hclosing, hopening, Nat.add_zero] at hle
        exact hle
      · have htruth := Scope.ofTokens_of_read hread (List.nil_append _).symm (by simp [Scope.Behind])
        exact (htruth.resolve_left hunclosed).of_append hunclosed
          (Scope.ne_unexpectedClosing_of_read hread)
    · next scope hread =>
      split at h
      · next hrest =>
        obtain rfl := Except.error.inj h
        exact ofTokens_unexpectedClosing hread hrest
      · next hrest =>
        split at h
        · next hquery =>
          obtain rfl := Except.error.inj h
          -- the scope that nothing stands in is closed by the last parenthesis
          have hsplit := Scope.eq_closing_of_read hread hquery
          rw [not_not.1 hrest] at hsplit
          exact .inl (List.append_inj_left' (hsplit.trans (List.nil_append _).symm) rfl)
        · cases h

end Query
end RollCall

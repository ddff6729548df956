import RollCall.Query.Lexer

/-!
# Reading queries

The grammar has terms and chains of terms:

    query   ::= term (keyword term)*
    term    ::= tag | folder | link | "(" query ")"
    keyword ::= "and" | "or"

Both keywords bind alike, and a chain groups to the right: the right operand of a keyword is the
whole rest of the scope it stands in. A scope is what stands between two parentheses; the whole text
is one scope too, for which a closing parenthesis is put at its end.
-/

namespace RollCall

/-- The query of a token that stands alone; a token that is no term is reported by its name. -/
def Token.leaf (token : Token) (position : Nat) : Except SyntaxError Query :=
  match token with
  | .term t => .ok (.term t)
  | .opening => .error (.unexpectedTerm "OpenParen" position)
  | .closing => .error (.unexpectedTerm "CloseParen" position)
  | .keyword .and => .error (.unexpectedTerm "Keyword(And)" position)
  | .keyword .or => .error (.unexpectedTerm "Keyword(Or)" position)

/-- A scope that was read up to and including its closing parenthesis. -/
structure Scope (tokens : List PlacedToken) where
  /-- The query of the scope; none if nothing stands in it. -/
  query : Option Query
  /-- Where the closing parenthesis stands. -/
  closedAt : Nat
  /-- The tokens behind the closing parenthesis. -/
  rest : List PlacedToken
  /-- At least the closing parenthesis has been read. -/
  shorter : rest.length < tokens.length

/-- Reads the rest of a scope, where `current` is what has been read of it. -/
def Scope.read (current : Option Query) (tokens : List PlacedToken) :
    Except SyntaxError (Scope tokens) :=
  match tokens with
  | [] => .error .unclosedParenthesis
  | ⟨.opening, position⟩ :: tokens =>
    match current with
    | some _ => .error (.unexpectedTerm "(" position)
    | none =>
      match Scope.read none tokens with
      | .error error => .error error
      | .ok inner =>
        match inner.query with
        | none => .error .emptyQuery
        | some query =>
          match Scope.read (some query) inner.rest with
          | .error error => .error error
          | .ok outer =>
            .ok ⟨outer.query, outer.closedAt, outer.rest,
              Nat.lt_succ_of_lt (Nat.lt_trans outer.shorter inner.shorter)⟩
  | ⟨.closing, position⟩ :: tokens => .ok ⟨current, position, tokens, Nat.lt_succ_self _⟩
  | ⟨.keyword operation, position⟩ :: tokens =>
    match current with
    | none => .error (.missingOperand operation .left position)
    | some left =>
      match Scope.read none tokens with
      | .error error => .error error
      | .ok scope =>
        match scope.query with
        | none => .error (.missingOperand operation .right position)
        | some right =>
          .ok ⟨some (.binary operation left right), scope.closedAt, scope.rest,
            Nat.lt_succ_of_lt scope.shorter⟩
  | ⟨token, position⟩ :: tokens =>
    match token.leaf position with
    | .error error => .error error
    | .ok leaf =>
      match current with
      | some _ => .error (.unexpectedTerm leaf.render position)
      | none =>
        match Scope.read (some leaf) tokens with
        | .error error => .error error
        | .ok scope =>
          .ok ⟨scope.query, scope.closedAt, scope.rest, Nat.lt_succ_of_lt scope.shorter⟩
termination_by tokens.length
decreasing_by
  · exact Nat.lt_succ_self _
  · exact Nat.lt_succ_of_lt inner.shorter
  · exact Nat.lt_succ_self _
  · exact Nat.lt_succ_self _

namespace Query

/-- The query that a list of tokens spells. The parenthesis that closes the whole text is put behind
the last token; when another one closes it, that one is too many. -/
def ofTokens? (tokens : List PlacedToken) : Except SyntaxError Query :=
  match tokens.getLast? with
  | none => .error .emptyQuery
  | some last =>
    match Scope.read none (tokens ++ [⟨.closing, last.position + 1⟩]) with
    | .error error => .error error
    | .ok scope =>
      if scope.rest ≠ [] then .error (.unexpectedClosing scope.closedAt)
      else
        match scope.query with
        | none => .error .emptyQuery
        | some query => .ok query

/-- The query that a text spells. -/
def parse (text : String) : Except SyntaxError Query :=
  match Token.read text with
  | .error error => .error error
  | .ok tokens => ofTokens? tokens

end Query

end RollCall

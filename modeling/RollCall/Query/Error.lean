import RollCall.Query.Basic

/-!
# Faults of a query text

Why a text is no query. Positions are byte offsets into the text.
-/

namespace RollCall

/-- A side of a keyword. -/
inductive Side where
  /-- Before the keyword. -/
  | left
  /-- After the keyword. -/
  | right
deriving DecidableEq, Repr

/-- The word for a side. -/
def Side.name : Side → String
  | left => "left"
  | right => "right"

/-- Why a text is no query. -/
inductive SyntaxError where
  /-- There is nothing to select by, in the whole text or between two parentheses. -/
  | emptyQuery
  /-- No token begins with the character. -/
  | invalidCharacter (character : Char) (position : Nat)
  /-- A tag has no name or a character that names may not have. -/
  | invalidTag (position : Nat)
  /-- A folder has no closing quote. -/
  | unterminatedFolder (position : Nat)
  /-- A link has no closing brackets. -/
  | unterminatedLink (position : Nat)
  /-- A word is no keyword. -/
  | invalidKeyword (word : String) (position : Nat)
  /-- A parenthesis is never closed. -/
  | unclosedParenthesis
  /-- A parenthesis is closed that was never opened. -/
  | unexpectedClosing (position : Nat)
  /-- Nothing stands on one side of a keyword. -/
  | missingOperand (operation : Operation) (side : Side) (position : Nat)
  /-- A term follows another without a keyword between them. -/
  | unexpectedTerm (term : String) (position : Nat)
deriving DecidableEq, Repr

/-- The wording of a fault. -/
def SyntaxError.message : SyntaxError → String
  | emptyQuery => "query is empty"
  | invalidCharacter character position =>
    s!"unexpected character '{character}' at position {position}"
  | invalidTag position => s!"invalid tag at position {position}"
  | unterminatedFolder position => s!"unterminated folder token at position {position}"
  | unterminatedLink position => s!"unterminated link token at position {position}"
  | invalidKeyword word position => s!"invalid keyword '{word}' at position {position}"
  | unclosedParenthesis => "unclosed parenthesis"
  | unexpectedClosing position => s!"unexpected ')' at position {position}"
  | missingOperand operation side position =>
    s!"keyword '{operation.name}' at position {position} is missing its {side.name} operand"
  | unexpectedTerm term position =>
    s!"unexpected term '{term}' at position {position}, expected 'and' or 'or'"

end RollCall

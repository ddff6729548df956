import RollCall.Query.Basic
import RollCall.Text.Blank
import RollCall.Text.Bytes

/-!
# Tokens

The words of the query language and their spelling.

A token is the program's `QueryToken`, and `query?` is `to_query`.
-/

namespace RollCall

/-- A word of the query language. -/
inductive Token where
  /-- A tag, a folder or a link. -/
  | term (term : Term)
  /-- An opening parenthesis. -/
  | opening
  /-- A closing parenthesis. -/
  | closing
  /-- A keyword. -/
  | keyword (operation : Operation)
deriving DecidableEq, Repr

/-- A token and the byte offset at which it begins. -/
structure PlacedToken where
  /-- The token. -/
  token : Token
  /-- The offset of its first byte. -/
  position : Nat
deriving DecidableEq, Repr

namespace Token

/-- The query of a term; parentheses and keywords stand for none. -/
def query? : Token → Option Query
  | term t => some (.term t)
  | opening | closing | keyword _ => none

/-- How a token is written. -/
def spelling : Token → List Char
  | term t => t.chars
  | opening => ['(']
  | closing => [')']
  | keyword operation => operation.keyword

/-- The characters of a tag name. -/
def isTagChar (c : Char) : Bool :=
  c.isAlphanum || c == '_' || c == '-' || c == '/'

/-- The characters that end a tag. -/
def isTagEnd (c : Char) : Bool :=
  Text.isBlank c || c == '(' || c == ')'

end Token

end RollCall

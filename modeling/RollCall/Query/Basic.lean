/-!
# Queries

A query selects attendees among the documents of a vault: by tag, by folder, by link, or by
combining two queries. The canonical form puts parentheses around every combination.
-/

namespace RollCall

/-- How two queries are combined. -/
inductive Operation where
  /-- Documents that both queries select. -/
  | and
  /-- Documents that either query selects. -/
  | or
deriving DecidableEq, Repr

/-- The keyword of an operation. -/
def Operation.keyword : Operation → List Char
  | and => ['a', 'n', 'd']
  | or => ['o', 'r']

/-- The keyword of an operation. -/
def Operation.name (operation : Operation) : String :=
  String.ofList operation.keyword

/-- What a query names: a tag, a folder or a link. -/
inductive Term where
  /-- Documents with the tag or one below it; the name has no `#`. -/
  | tag (name : String)
  /-- Documents below the folder. -/
  | folder (path : String)
  /-- Documents that the target links to or that link to it. -/
  | link (target : String)
deriving DecidableEq, Repr

/-- How a term is written. -/
def Term.chars : Term → List Char
  | tag name => '#' :: name.toList
  | folder path => '"' :: path.toList ++ ['"']
  | link target => '[' :: '[' :: target.toList ++ [']', ']']

/-- A selection of documents. -/
inductive Query where
  /-- The documents of a term. -/
  | term (term : Term)
  /-- Two queries combined. -/
  | binary (operation : Operation) (left right : Query)
deriving DecidableEq, Repr

namespace Query

/-- The query of a tag. -/
abbrev tag (name : String) : Query := .term (.tag name)

/-- The query of a folder. -/
abbrev folder (path : String) : Query := .term (.folder path)

/-- The query of a link. -/
abbrev link (target : String) : Query := .term (.link target)

/-- The characters of the canonical form. -/
def chars : Query → List Char
  | term t => t.chars
  | binary operation left right =>
    '(' :: left.chars ++ ' ' :: operation.keyword ++ ' ' :: right.chars ++ [')']

/-- The canonical form. -/
def render (query : Query) : String :=
  String.ofList query.chars

instance : ToString Query := ⟨render⟩

end Query

end RollCall

import RollCall.Names.Set
import RollCall.Names.Suggestion
import RollCall.Query.Basic

/-!
# Resolving queries

A query is resolved against what a vault knows about its documents. Combining two queries combines
their sets; the left one is resolved first, so that of two missing folders the left one is reported.

`Lookup` is the program's `QueryIndex`, `Neighbours` its `LinkGraph`, and `Lookup.resolve` is what a
`QueryResolver` does.
-/

namespace RollCall

/-- The documents that a document links to, and those that link to it. -/
structure Neighbours where
  /-- The targets of its links. -/
  outgoing : NameSet
  /-- The documents with a link to it. -/
  incoming : NameSet
deriving DecidableEq

/-- What can be asked about the documents of a vault. -/
structure Lookup where
  /-- The documents with a tag or one below it. -/
  documentsWithTag : String → NameSet
  /-- Whether a folder exists. -/
  folderExists : String → Bool
  /-- The documents below a folder, at any depth. -/
  documentsUnder : String → NameSet
  /-- The document that the text of a link means. -/
  linkTarget? : String → Option String
  /-- The links of a document. -/
  neighbours : String → Neighbours
  /-- All folders, in ascending order. -/
  knownFolders : List String

/-- Why a query selects nothing at all. -/
inductive ResolveError where
  /-- A folder does not exist; one with a similar name may. -/
  | folderNotFound (folder : String) (suggestion : Option String)
deriving DecidableEq, Repr

/-- The wording of the reason. -/
def ResolveError.message : ResolveError → String
  | folderNotFound folder none => s!"folder '{folder}' does not exist"
  | folderNotFound folder (some name) =>
    s!"folder '{folder}' does not exist. Did you mean '{name}'?"

namespace Lookup

/-- The documents of a folder, which has to exist. -/
def resolveFolder (lookup : Lookup) (folder : String) : Except ResolveError NameSet :=
  if lookup.folderExists folder then .ok (lookup.documentsUnder folder)
  else .error (.folderNotFound folder (suggest? folder lookup.knownFolders))

/-- The neighbours of a link's target; a link without a target has none. -/
def resolveLink (lookup : Lookup) (link : String) : NameSet :=
  match lookup.linkTarget? link with
  | none => ∅
  | some target =>
    let found := lookup.neighbours target
    found.outgoing.union found.incoming

/-- The documents of a term. -/
def resolveTerm (lookup : Lookup) : Term → Except ResolveError NameSet
  | .tag name => .ok (lookup.documentsWithTag name)
  | .folder path => lookup.resolveFolder path
  | .link target => .ok (lookup.resolveLink target)

/-- The documents that a query selects. -/
def resolve (lookup : Lookup) : Query → Except ResolveError NameSet
  | .term term => lookup.resolveTerm term
  | .binary operation left right =>
    match lookup.resolve left with
    | .error error => .error error
    | .ok left =>
      match lookup.resolve right with
      | .error error => .error error
      | .ok right =>
        match operation with
        | .and => .ok (left.inter right)
        | .or => .ok (left.union right)

end Lookup

end RollCall

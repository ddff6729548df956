import RollCall.Names.Set
import RollCall.Text.Blank
import RollCall.Text.Find

/-!
# Document paths

Documents and folders are named by their path below the vault, with slashes between the parts.

`ofArgument` is `document_path`, by which a command reads the path it is given. `displayName` and
`markdown` are the `file_name` and the `markdown` of a `Link`. `trimSlashes` and `ancestors` are
`normalize_folder` and `parent_folders` of the index.
-/

namespace RollCall.Path

/-- A folder path without slashes around it. -/
def trimSlashes (folder : String) : String :=
  let front := folder.toList.dropWhile (· = '/')
  String.ofList (front.reverse.dropWhile (· = '/')).reverse

/-- What stands before each slash of a path, the shortest first. -/
def ancestorChars : List Char → List (List Char)
  | [] => []
  | c :: text =>
    let deeper := (ancestorChars text).map (c :: ·)
    if c = '/' then [] :: deeper else deeper

/-- The folders that a document lies in, the outermost first. -/
def ancestors (path : String) : List String :=
  (ancestorChars path.toList).map String.ofList

/-- Whether a path lies below a folder. -/
def isUnder (folder path : String) : Bool :=
  (Text.after? (folder.toList ++ ['/']) path.toList).isSome

/-- A path with the extension of documents added. -/
def withExtension (path : String) : String := path ++ ".md"

/-- Whether a path ends in the extension of documents. -/
def hasExtension (path : String) : Bool :=
  Text.endsWith ".md".toList path.toList

/-- A path without the dots with a slash behind them that it starts with. -/
def dropDotSlashes : List Char → List Char
  | '.' :: '/' :: path => dropDotSlashes path
  | path => path

/-- The path of the document that an argument names. Blanks around it do not count, nor does what it
starts with when that leads nowhere; backslashes are slashes, and the extension may be left out. -/
def ofArgument (argument : String) : String :=
  let path := (dropDotSlashes (Text.trim argument.toList)).dropWhile (· = '/')
  let path := String.ofList (path.map fun c => if c = '\\' then '/' else c)
  if hasExtension path then path else withExtension path

/-- The part of a path behind its last slash. -/
def lastPart (path : List Char) : List Char :=
  (path.reverse.takeWhile (· ≠ '/')).reverse

/-- The name under which a document is shown: its last part without the extension. -/
def displayName (path : String) : String :=
  let name := lastPart path.toList
  String.ofList ((Text.before? ".md".toList name).getD name)

/-- The link that is written into a document to refer to another: its path and its name. -/
def markdown (path : String) : String :=
  s!"[[{path}|{displayName path}]]"

end RollCall.Path

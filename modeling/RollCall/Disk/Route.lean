import RollCall.Names.Path
import RollCall.Text.Bytes

/-!
# Written paths

A path on a disk is written as the names to go through, with slashes between them. Here it is taken
apart, put together and given other endings; whether anything is there is not asked.
-/

namespace RollCall

/-- A written path, taken apart. -/
structure Route where
  /-- Whether it starts at the top of the disk. -/
  absolute : Bool
  /-- The steps between the slashes, `.` and `..` among them. -/
  steps : List String
  /-- Whether it ends with a slash, and so has to lead to a folder. -/
  closed : Bool
deriving DecidableEq, Repr

namespace Route

/-- The parts between the slashes of a path that are not empty. -/
def parts (path : String) : List String :=
  ((Text.split '/' path.toList).filter (· ≠ [])).map String.ofList

/-- Whether a path starts at the top of the disk. -/
def isAbsolute (path : String) : Bool :=
  path.toList.head? = some '/'

/-- Takes a written path apart. -/
def ofText (path : String) : Route :=
  ⟨isAbsolute path, parts path, path.toList.getLast? = some '/'⟩

/-- The steps of a path by which it is compared with others: the top of the disk is one, and a lone
dot is none except in front. -/
def components (path : String) : List String :=
  if isAbsolute path then "/" :: (parts path).filter (· ≠ ".")
  else (parts path).take 1 ++ ((parts path).drop 1).filter (· ≠ ".")

/-- A path that is followed by another. An absolute path stands for itself. -/
def join (base path : String) : String :=
  if isAbsolute path || base = "" then path
  else if base.toList.getLast? = some '/' then base ++ path
  else base ++ "/" ++ path

/-- A backward text without the slashes and lone dots that lead nowhere. -/
def dropIdleSteps : List Char → List Char
  | '/' :: path => dropIdleSteps path
  | '.' :: '/' :: path => dropIdleSteps path
  | path => path

/-- A path without the slashes and lone dots at its end. -/
def trimmed (path : String) : List Char :=
  (dropIdleSteps path.toList.reverse).reverse

/-- The name that a path ends in, if it ends in one and not in a step up. -/
def fileName? (path : String) : Option (List Char) :=
  let name := Path.lastPart (trimmed path)
  if name = [] ∨ name = ['.'] ∨ name = ['.', '.'] then none else some name

/-- A name before and after its last dot. A dot in front does not count. -/
def splitExtension (name : List Char) : List Char × Option (List Char) :=
  let extension := (name.reverse.takeWhile (· ≠ '.')).reverse
  let stem := name.take (name.length - extension.length - 1)
  if extension.length = name.length ∨ stem = [] then (name, none) else (stem, some extension)

/-- What stands behind the last dot of the name at the end of a path. -/
def extension? (path : String) : Option (List Char) :=
  (fileName? path).bind fun name => (splitExtension name).2

/-- The path with another extension. A path that ends in no name stays as it is. -/
def withExtension (extension path : String) : String :=
  match fileName? path with
  | none => path
  | some name =>
    let folder := (trimmed path).take ((trimmed path).length - name.length)
    String.ofList (folder ++ (splitExtension name).1 ++ '.' :: extension.toList)

/-- The path of the folder around; none for the top of the disk and for no path at all. -/
def parent? (path : String) : Option String :=
  let path := trimmed path
  if path = [] then none
  else
    let folder := path.take (path.length - (Path.lastPart path).length)
    let outer := trimmed (String.ofList folder)
    some (String.ofList (if outer = [] then folder.take 1 else outer))

end Route

end RollCall

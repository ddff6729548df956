import RollCall.Disk.Basic
import RollCall.Disk.Fault
import RollCall.Disk.Route

/-!
# Access to a disk by written paths

A path is followed step by step from the top or from the current place; every step has to start in a
folder. An operation that fails leaves the disk as it was.
-/

namespace RollCall.Disk

/-- The greatest number of bytes of a name. -/
def maxNameBytes : Nat := 255

/-- The greatest number of bytes of a path. -/
def maxPathBytes : Nat := 4095

/-- Whether a name is too long for a disk. -/
def isTooLong (name : String) : Bool :=
  maxNameBytes < Text.bytes name.toList

/-- The place that some steps lead to. Nothing needs to be there, but each step starts in a folder. -/
def follow (disk : Disk) : Place → List String → Except SystemError Place
  | place, [] => .ok place
  | place, step :: steps =>
    match disk.node? place with
    | none => .error .notFound
    | some (.file _) => .error .notADirectory
    | some .folder =>
      if step = "." then follow disk place steps
      else if step = ".." then follow disk place.dropLast steps
      else if isTooLong step then .error .nameTooLong
      else follow disk (place ++ [step]) steps

/-- Takes a path apart that can be one of a disk. -/
def route? (path : String) : Except DiskFault Route :=
  if '\x00' ∈ path.toList then .error .nullInPath
  else if path = "" then .error .notFound
  else if maxPathBytes < Text.bytes path.toList then .error (.system .nameTooLong)
  else .ok (Route.ofText path)

/-- The place at which a route starts. -/
def start (disk : Disk) (route : Route) : Place :=
  if route.absolute then [] else disk.current

/-- The place that a path leads to, and what is there. -/
def locate (disk : Disk) (path : String) : Except DiskFault (Place × Node) :=
  match route? path with
  | .error fault => .error fault
  | .ok route =>
    match disk.follow (disk.start route) route.steps with
    | .error error => .error (.system error)
    | .ok place =>
      match disk.node? place with
      | none => .error .notFound
      | some .folder => .ok (place, .folder)
      | some (.file content) =>
        if route.closed then .error (.system .notADirectory) else .ok (place, .file content)

/-- Whether a path leads to a folder. -/
def isFolder (disk : Disk) (path : String) : Bool :=
  match disk.locate path with
  | .ok (_, .folder) => true
  | _ => false

/-- Whether a path leads to a file. -/
def isFile (disk : Disk) (path : String) : Bool :=
  match disk.locate path with
  | .ok (_, .file _) => true
  | _ => false

/-- Whether a path leads to anything. -/
def hasNode (disk : Disk) (path : String) : Bool :=
  (disk.locate path).toBool

/-- The text of a file. -/
def read (disk : Disk) (path : String) : Except DiskFault String :=
  match disk.locate path with
  | .error fault => .error fault
  | .ok (_, .folder) => .error (.system .isADirectory)
  | .ok (_, .file (.bytes _)) => .error .invalidText
  | .ok (_, .file (.text text)) => .ok text

/-- What lies directly in a folder. -/
def readFolder (disk : Disk) (path : String) : Except DiskFault (List (String × Node)) :=
  match disk.locate path with
  | .error fault => .error fault
  | .ok (_, .file _) => .error (.system .notADirectory)
  | .ok (place, .folder) => .ok (disk.children place)

/-- The end of a path, to be made or replaced. -/
structure Slot where
  /-- The folder in which it lies. -/
  folder : Place
  /-- Its name; none if the path ends in `.` or `..` or is the top. -/
  name? : Option String
  /-- Whether the path ends with a slash. -/
  closed : Bool

/-- The end of a path; the folder around it has to be there. -/
def slot (disk : Disk) (path : String) : Except DiskFault Slot :=
  match route? path with
  | .error fault => .error fault
  | .ok route =>
    match route.steps.getLast? with
    | none => .ok ⟨[], none, route.closed⟩
    | some name =>
      match disk.follow (disk.start route) route.steps.dropLast with
      | .error error => .error (.system error)
      | .ok folder =>
        match disk.node? folder with
        | none => .error .notFound
        | some (.file _) => .error (.system .notADirectory)
        | some .folder =>
          .ok ⟨folder, if name = "." ∨ name = ".." then none else some name, route.closed⟩

/-- Puts a content into a file, which is made if it is not there. -/
def store (disk : Disk) (path : String) (content : Content) : Except DiskFault Disk :=
  match disk.slot path with
  | .error fault => .error fault
  | .ok ⟨_, none, _⟩ => .error (.system .isADirectory)
  | .ok ⟨folder, some name, closed⟩ =>
    if closed then .error (.system .isADirectory)
    else if isTooLong name then .error (.system .nameTooLong)
    else
      match disk.node? (folder ++ [name]) with
      | some .folder => .error (.system .isADirectory)
      | _ => .ok (disk.put (folder ++ [name]) (.file content))

/-- Writes a text into a file, which is made if it is not there. -/
def write (disk : Disk) (path text : String) : Except DiskFault Disk :=
  disk.store path (.text text)

/-- Moves a file to another path, in the stead of a file that is there. -/
def moveFile (disk : Disk) (source target : String) : Except DiskFault Disk :=
  match disk.slot source with
  | .error fault => .error fault
  | .ok origin =>
    match disk.slot target with
    | .error fault => .error fault
    | .ok goal =>
      match origin.name?, goal.name? with
      | none, _ | _, none => .error (.system .busy)
      | some oldName, some newName =>
        let old := origin.folder ++ [oldName]
        let new := goal.folder ++ [newName]
        match disk.node? old with
        | none => .error .notFound
        | some .folder => .error (.system .isADirectory)
        | some (.file content) =>
          if isTooLong newName then .error (.system .nameTooLong)
          else if origin.closed || goal.closed then .error (.system .notADirectory)
          else
            match disk.node? new with
            | some .folder => .error (.system .isADirectory)
            | _ => .ok ((disk.erase old).put new (.file content))

/-- Makes the folders that some steps go through, where they are not there. -/
def makeSteps (disk : Disk) : Place → List String → Except SystemError Disk
  | _, [] => .ok disk
  | place, step :: steps =>
    if step = "." then makeSteps disk place steps
    else if step = ".." then makeSteps disk place.dropLast steps
    else if isTooLong step then .error .nameTooLong
    else
      let place := place ++ [step]
      match disk.node? place with
      | some .folder => makeSteps disk place steps
      | some (.file _) => .error (if steps = [] then .alreadyThere else .notADirectory)
      | none => makeSteps (disk.put place .folder) place steps

/-- Makes a folder and the folders around it, where they are not there. -/
def makeFolders (disk : Disk) (path : String) : Except DiskFault Disk :=
  if path = "" then .ok disk
  else
    match route? path with
    | .error fault => .error fault
    | .ok route =>
      match disk.makeSteps (disk.start route) route.steps with
      | .error error => .error (.system error)
      | .ok disk => .ok disk

end RollCall.Disk

/-!
# Faults of a disk

Why a file cannot be read or written.
-/

namespace RollCall

/-- Why a file system refuses an operation. -/
inductive SystemError where
  /-- Nothing is there. -/
  | notFound
  /-- The path ends in `.` or `..`, which cannot be replaced. -/
  | busy
  /-- Something is there already. -/
  | alreadyThere
  /-- A part of the path that has to be a folder is none. -/
  | notADirectory
  /-- A file was expected where a folder is. -/
  | isADirectory
  /-- A name or a path is too long. -/
  | nameTooLong
deriving DecidableEq, Repr

/-- The number of a refusal. -/
def SystemError.code : SystemError → Nat
  | notFound => 2
  | busy => 16
  | alreadyThere => 17
  | notADirectory => 20
  | isADirectory => 21
  | nameTooLong => 36

/-- What a refusal is called. -/
def SystemError.title : SystemError → String
  | notFound => "No such file or directory"
  | busy => "Device or resource busy"
  | alreadyThere => "File exists"
  | notADirectory => "Not a directory"
  | isADirectory => "Is a directory"
  | nameTooLong => "File name too long"

/-- Why a text cannot be read or written. -/
inductive DiskFault where
  /-- The file system refuses. -/
  | system (error : SystemError)
  /-- The path holds a null character. -/
  | nullInPath
  /-- The bytes of the file are no UTF-8 text. -/
  | invalidText
deriving DecidableEq, Repr

/-- The wording of a fault. -/
def DiskFault.message : DiskFault → String
  | system error => s!"{error.title} (os error {error.code})"
  | nullInPath => "file name contained an unexpected NUL byte"
  | invalidText => "stream did not contain valid UTF-8"

/-- The fault of a path at which nothing is. -/
abbrev DiskFault.notFound : DiskFault := system .notFound

end RollCall

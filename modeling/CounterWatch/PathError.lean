/-!
# Errors of paths

Why a path cannot be followed, or why nothing can be done with what it leads to.
-/

namespace CounterWatch

/-- Why a path cannot be used. -/
inductive PathError where
  | notFound
  | isADirectory
  | notADirectory
  /-- Something stands where a directory is to be made. -/
  | alreadyExists
  /-- Something stands where a socket is to be opened. -/
  | addressInUse
  /-- A socket stands where a file is to be opened. -/
  | isASocket
  /-- The content is not text. -/
  | invalidData
  /-- The path holds the character that ends a path. -/
  | nulCharacter
  /-- The path, or one of the names on it, is too long for a file system. -/
  | nameTooLong
  /-- The path as a whole is too long for the address of a socket. -/
  | addressTooLong
  deriving DecidableEq, Repr

namespace PathError

/-- The name of the kind of error. -/
def name : PathError → String
  | .notFound => "NotFound"
  | .isADirectory => "IsADirectory"
  | .notADirectory => "NotADirectory"
  | .alreadyExists => "AlreadyExists"
  | .addressInUse => "AddrInUse"
  | .isASocket => "Uncategorized"
  | .invalidData => "InvalidData"
  | .nameTooLong => "InvalidFilename"
  | .nulCharacter | .addressTooLong => "InvalidInput"

/-- The wording of the error. -/
def message : PathError → String
  | .notFound => "No such file or directory (os error 2)"
  | .isADirectory => "Is a directory (os error 21)"
  | .notADirectory => "Not a directory (os error 20)"
  | .alreadyExists => "File exists (os error 17)"
  | .addressInUse => "Address already in use (os error 98)"
  | .isASocket => "No such device or address (os error 6)"
  | .invalidData => "stream did not contain valid UTF-8"
  | .nulCharacter => "file name contained an unexpected NUL byte"
  | .nameTooLong => "File name too long (os error 36)"
  | .addressTooLong => "path must be shorter than SUN_LEN"

end PathError

end CounterWatch

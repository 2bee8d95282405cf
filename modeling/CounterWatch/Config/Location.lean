/-!
# The place of the configuration

Where the configuration is looked for when no file is named: in a directory of the user's own.
-/

namespace CounterWatch

namespace Config

/-- The path of a name inside a directory. -/
def joined (directory name : String) : String :=
  if directory.isEmpty then name
  else if directory.toList.getLast? = some '/' then directory ++ name
  else directory ++ "/" ++ name

/-- Whether a path does not depend on the working directory. -/
def isAbsolute (path : String) : Bool := path.toList.head? = some '/'

/-- The user's directory for configurations: the one set for them, if that is an absolute path, or
else a directory in the home directory. -/
def baseDirectory (home : String) (setting : Option String) : String :=
  match setting with
  | some path => if isAbsolute path then path else joined home ".config"
  | none => joined home ".config"

/-- The path of the configuration in a directory for configurations. -/
def pathIn (base : String) : String := joined (joined base "cpu-guardian") "guardian.toml"

/-- The path of the configuration. -/
def path (home : String) (setting : Option String) : String := pathIn (baseDirectory home setting)

end Config

end CounterWatch

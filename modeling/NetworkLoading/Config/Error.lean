import NetworkLoading.FileTree

/-!
# Errors of settings
-/

namespace NetworkLoading

inductive ConfigError where
  /-- The file could not be opened. -/
  | file (path : String) (fault : FileFault)
  /-- The file does not hold settings. -/
  | malformed (path : String)
  /-- The file was opened but could not be written. -/
  | write (path : String) (fault : FileFault)
  | invalidValue (key value : String)
  | unknownKey (key : String)
deriving DecidableEq

namespace ConfigError

/-- The wording of every error. -/
def message : ConfigError → String
  | file path fault => s!"failed to read config at {path}: {fault.message}"
  | malformed path => s!"failed to parse config at {path}"
  | write path fault => s!"failed to write config to {path}: {fault.message}"
  | invalidValue key value => s!"invalid value {value} for config key {key}"
  | unknownKey key => s!"unknown config key {key}"

/-- The error if settings could not be read. A directory can be opened, but holds no settings. -/
def ofReading (path : String) : FileFault → ConfigError
  -- It is only when the text is asked for that a directory turns out to have none.
  | .isDirectory => malformed path
  | fault => file path fault

/-- The error if settings could not be written. Only an open file shows whether there is space. -/
def ofWriting (path : String) : FileFault → ConfigError
  | .noSpace => write path .noSpace
  | fault => file path fault

end ConfigError

end NetworkLoading

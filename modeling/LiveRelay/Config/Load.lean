import LiveRelay.Config.Document
import LiveRelay.Config.Validation

/-! # Loading a configuration

A configuration comes from a text or a file. It is only handed out if it is valid.
-/

namespace LiveRelay

/-- Why a file cannot be read as text. -/
inductive FileError where
  | notFound
  | permissionDenied
  | notADirectory
  | isADirectory
  | notUtf8
  | other (cause : String)
  deriving DecidableEq

namespace FileError

def message : FileError → String
  | notFound => "No such file or directory (os error 2)"
  | permissionDenied => "Permission denied (os error 13)"
  | notADirectory => "Not a directory (os error 20)"
  | isADirectory => "Is a directory (os error 21)"
  | notUtf8 => "stream did not contain valid UTF-8"
  | other cause => cause

end FileError

/-- Why there is no configuration. -/
inductive ConfigError where
  /-- The file cannot be read. -/
  | read (path : String) (cause : FileError)
  /-- The file is no document that fits. -/
  | parse (path : String) (cause : Yaml.DocumentError)
  /-- The text is no document that fits. -/
  | document (cause : Yaml.DocumentError)
  | invalid (reason : String)
  deriving DecidableEq

namespace ConfigError

def message : ConfigError → String
  | read path cause => s!"failed to read config file {path}: {cause.message}"
  | parse path cause => s!"failed to parse config file {path}: {cause.message}"
  | document cause => s!"failed to parse config: {cause.message}"
  | invalid reason => s!"invalid configuration: {reason}"

def ofFault (fault : ConfigFault) : ConfigError := invalid fault.message

end ConfigError

namespace Config

/-- The configuration, if it is valid. -/
def checked (config : Config) : Except ConfigError Config :=
  match config.validate with
  | .ok () => .ok config
  | .error fault => .error (.ofFault fault)

/-- Loads a configuration from a text. -/
def load (text : String) : Except ConfigError Config :=
  match ofText text with
  | .error cause => .error (.document cause)
  | .ok config => config.checked

/-- Loads a configuration from a file, given by what reading its bytes came to. -/
def loadFile (path : String) (contents : Except FileError ByteArray) : Except ConfigError Config :=
  match contents with
  | .error cause => .error (.read path cause)
  | .ok bytes =>
      match String.fromUTF8? bytes with
      | none => .error (.read path .notUtf8)
      | some text =>
          match ofText text with
          | .error cause => .error (.parse path cause)
          | .ok config => config.checked

end Config

end LiveRelay

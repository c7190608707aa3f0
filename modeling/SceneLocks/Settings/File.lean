import SceneLocks.Error
import SceneLocks.Settings.Environment
import SceneLocks.Settings.Toml

/-!
# The file of settings

Loading settings from what stands at a path, and what saving writes there. Settings that do
not validate are neither loaded nor saved.
-/

namespace SceneLocks

/-- What stands at the path of a file. -/
inductive FileContent where
  | missing
  | bytes (content : ByteArray)
  | unreadable (fault : FileFault)

namespace FileContent

/-- The text of a file that has to be there. -/
def text : FileContent → Except FileFault String
  | .missing => .error .notFound
  | .unreadable fault => .error fault
  | .bytes content =>
    match String.fromUTF8? content with
    | some text => .ok text
    | none => .error .notUtf8

end FileContent

namespace Settings

/-- The settings in a file; the defaults if there is no file. -/
def loadFrom (path : String) (content : FileContent) : Except Error Settings :=
  match content.text with
  | .error fault => if fault.isAbsence then .ok {} else .error (.io path fault)
  | .ok text =>
    match read? text with
    | none => .error (.config (.unreadable path))
    | some s => do
      s.validate.mapError Error.config
      return s

/-- The settings in a file, with the overrides of the environment. Both what the file holds
and the outcome have to be valid. -/
def load (env : Environment) (content : FileContent) : Except Error Settings := do
  let path ← env.settingsPath.mapError Error.config
  let s ← loadFrom path content
  let (s, overridden) := s.override env.lookup?
  overridden.mapError Error.config
  s.validate.mapError Error.config
  return s

/-- The text to write into a file, once its directory is there. -/
def saved (s : Settings) (directory : String) (made : Except FileFault Unit) :
    Except Error String := do
  s.validate.mapError Error.config
  made.mapError (Error.io directory)
  return s.toml

end Settings

end SceneLocks

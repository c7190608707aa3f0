import SceneLocks.Lock.Error
import SceneLocks.Session.Event
import SceneLocks.Settings.Basic

/-!
# Errors

Everything that can go wrong for a caller, with a code, a message and, for some, an advice.
-/

namespace SceneLocks

/-- What the file system answered. -/
inductive FileFault where
  | notFound
  | notDirectory
  | isDirectory
  | alreadyExists
  | nameTooLong
  | notUtf8
  | other (text : String)
deriving DecidableEq, Repr

def FileFault.message : FileFault → String
  | .notFound => "No such file or directory (os error 2)"
  | .notDirectory => "Not a directory (os error 20)"
  | .isDirectory => "Is a directory (os error 21)"
  | .alreadyExists => "File exists (os error 17)"
  | .nameTooLong => "File name too long (os error 36)"
  | .notUtf8 => "stream did not contain valid UTF-8"
  | .other text => text

/-- Whether it says that there is nothing at a path. -/
def FileFault.isAbsence : FileFault → Bool
  | .notFound | .notDirectory | .nameTooLong => true
  | _ => false

/-- Why an operation failed. -/
inductive Error where
  | lock (e : LockError)
  | session (e : SessionError)
  | config (e : ConfigError)
  | io (path : String) (fault : FileFault)
deriving DecidableEq, Repr

namespace Error

def code : Error → String
  | .lock e => e.code
  | .session e => e.code
  | .config _ => "E600"
  | .io .. => "E900"

def message : Error → String
  | .lock e => e.message
  | .session e => e.message
  | .config e => "Configuration error: " ++ e.message
  | .io path fault => "I/O error on " ++ path ++ ": " ++ fault.message

/-- What the caller may do about it. -/
def suggestion? : Error → Option String
  | .lock (.cannotLock ..) => some "Wait for the other user to finish, then try again"
  | .lock (.unknownResource _) =>
    some "Reload the scene or project; the object may have been removed"
  | .session (.userExists _) => some "Log in with a different user name"
  | .config _ => some "arserver config show"
  | _ => none

/-- Whether the caller may simply try again later. -/
def isRetryable : Error → Bool
  | .lock e => e.isContention
  | _ => false

end Error

end SceneLocks

import SceneLocks.Retry
import SceneLocks.Number.Decimal
import SceneLocks.Text.Classes

/-!
# Settings

The settings of the server, their defaults and what makes them valid. Numbers of seconds
are kept as they were given; only a valid one is sure to be a duration.
-/

namespace SceneLocks

open Number Time

/-- What is wrong with the settings, or with the way they were given. -/
inductive ConfigError where
  /-- Not a number of seconds that fits a duration. -/
  | badSeconds (field : String) (value : Binary64)
  | noRetries
  | badJitter (value : Binary64)
  | emptyFilter
  | unknownKey (key : String)
  /-- An environment variable that does not spell its setting. -/
  | badOverride (name value : String)
  /-- A file that does not hold settings. -/
  | unreadable (path : String)
  /-- Nowhere to look for the file. -/
  | noDirectory
  | other (text : String)
deriving DecidableEq, Repr

def ConfigError.message : ConfigError → String
  | .badSeconds field value =>
    field ++ " must be a non-negative number of seconds that fits a duration, got " ++ value.text
  | .noRetries => "lock_retries must be at least 1"
  | .badJitter value => "retry_jitter must be between 0.0 and 1.0, got " ++ value.text
  | .emptyFilter => "logging.filter must not be empty"
  | .unknownKey key =>
    "Unknown configuration key: " ++ key ++
      ". Use `arserver config show` to see available keys."
  | .badOverride name value => "Invalid value for " ++ name ++ ": '" ++ value ++ "'"
  | .unreadable path => "Failed to parse config file " ++ path
  | .noDirectory => "Could not determine config directory"
  | .other text => text

/-- The settings of the lock manager. -/
structure LockSettings where
  /-- How long a disconnected user keeps the locks, in seconds. -/
  timeout : Binary64 := .ofDecimal false 300 0
  /-- Retries after a failed attempt. -/
  retries : UInt32 := 13
  /-- The wait between attempts, in seconds. -/
  wait : Binary64 := .ofDecimal false 15 (-2)
  /-- The relative spread of the wait. -/
  jitter : Binary64 := .nought
deriving DecidableEq

/-- All settings. -/
structure Settings where
  locking : LockSettings := {}
  /-- Which log records to write. -/
  filter : String := "info"
deriving DecidableEq

instance : Inhabited LockSettings := ⟨{}⟩
instance : Inhabited Settings := ⟨{}⟩

namespace LockSettings

/-- The grace period of a disconnected user. -/
def gracePeriod (s : LockSettings) : Duration := .ofSeconds s.timeout

/-- The wait between attempts. -/
def retryWait (s : LockSettings) : Duration := .ofSeconds s.wait

/-- How requests are retried that do not say so themselves. -/
def policy (s : LockSettings) : RetryPolicy :=
  RetryPolicy.withJitter { retries := s.retries, wait := s.retryWait } s.jitter

/-- Refuses a number of seconds that is no duration. -/
def checkSeconds (field : String) (value : Binary64) : Except ConfigError Unit :=
  if (Duration.ofSeconds? value).isSome then .ok () else .error (.badSeconds field value)

/-- The first thing wrong with the settings. -/
def validate (s : LockSettings) : Except ConfigError Unit := do
  checkSeconds "lock_timeout_seconds" s.timeout
  checkSeconds "lock_retry_wait_seconds" s.wait
  if s.retries < 1 then .error .noRetries
  if !s.jitter.isFraction then .error (.badJitter s.jitter)

end LockSettings

namespace Settings

/-- The first thing wrong with the settings. -/
def validate (s : Settings) : Except ConfigError Unit := do
  s.locking.validate
  if Text.trim s.filter = "" then .error .emptyFilter

end Settings

end SceneLocks

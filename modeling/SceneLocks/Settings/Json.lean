import SceneLocks.Json.Fields
import SceneLocks.Json.Printer
import SceneLocks.Settings.Basic

/-!
# Settings as JSON

Missing fields keep their defaults.
-/

namespace SceneLocks

def LockSettings.ofJson? (j : Json) : Option LockSettings := do
  let d : LockSettings := {}
  match ← j.fields?
    ["lock_timeout_seconds", "lock_retries", "lock_retry_wait_seconds", "retry_jitter"] with
  | [timeout, retries, wait, jitter] =>
    some {
      timeout := ← Json.orElse d.timeout Json.double? timeout
      retries := ← Json.orElse d.retries Json.count? retries
      wait := ← Json.orElse d.wait Json.double? wait
      jitter := ← Json.orElse d.jitter Json.double? jitter }
  | _ => none

/-- The filter of the logging section. -/
def Settings.filterOfJson? (default : String) (j : Json) : Option String := do
  match ← j.fields? ["filter"] with
  | [filter] => Json.orElse default Json.string? filter
  | _ => none

def Settings.ofJson? (j : Json) : Option Settings := do
  let d : Settings := {}
  match ← j.fields? ["locking", "logging"] with
  | [locking, logging] =>
    some {
      locking := ← Json.orElse d.locking LockSettings.ofJson? locking
      filter := ← Json.orElse d.filter (Settings.filterOfJson? d.filter) logging }
  | _ => none

def Settings.json (s : Settings) : Json :=
  .object [
    ("locking", .object [("lock_timeout_seconds", .ofDouble s.locking.timeout),
      ("lock_retries", .ofNat s.locking.retries.toNat),
      ("lock_retry_wait_seconds", .ofDouble s.locking.wait),
      ("retry_jitter", .ofDouble s.locking.jitter)]),
    ("logging", .object [("filter", .string s.filter)])]

end SceneLocks

import SceneLocks.Settings.Basic

/-!
# Valid settings

What a validation accepts, setting by setting, and what it blames when it refuses.
-/

namespace SceneLocks

open Number Time

namespace LockSettings

variable {s : LockSettings} {e : ConfigError}

/-- Both numbers of seconds are durations, there is a retry, and the spread is a fraction. -/
structure Valid (s : LockSettings) : Prop where
  timeout : (Duration.ofSeconds? s.timeout).isSome
  wait : (Duration.ofSeconds? s.wait).isSome
  retries : 1 ≤ s.retries
  jitter : s.jitter.isFraction

/-- A refusal names a setting that is not as it has to be, with its value. -/
inductive Blames (s : LockSettings) : ConfigError → Prop
  | timeout (h : ¬ (Duration.ofSeconds? s.timeout).isSome) :
    Blames s (.badSeconds "lock_timeout_seconds" s.timeout)
  | wait (h : ¬ (Duration.ofSeconds? s.wait).isSome) :
    Blames s (.badSeconds "lock_retry_wait_seconds" s.wait)
  | retries (h : ¬ 1 ≤ s.retries) : Blames s .noRetries
  | jitter (h : ¬ s.jitter.isFraction) : Blames s (.badJitter s.jitter)

theorem Blames.not_valid (h : s.Blames e) : ¬ s.Valid := by
  intro hvalid
  cases h with
  | timeout h => exact h hvalid.timeout
  | wait h => exact h hvalid.wait
  | retries h => exact h hvalid.retries
  | jitter h => exact h hvalid.jitter

theorem validate_cases (s : LockSettings) :
    s.validate = .ok () ∧ s.Valid ∨ ∃ e, s.validate = .error e ∧ s.Blames e := by
  unfold validate checkSeconds
  by_cases htimeout : (Duration.ofSeconds? s.timeout).isSome
  case neg => exact .inr ⟨_, by rw [if_neg htimeout]; rfl, .timeout htimeout⟩
  by_cases hwait : (Duration.ofSeconds? s.wait).isSome
  case neg => exact .inr ⟨_, by rw [if_pos htimeout, if_neg hwait]; rfl, .wait hwait⟩
  rw [if_pos htimeout, if_pos hwait]
  by_cases hretries : 1 ≤ s.retries
  case neg =>
    exact .inr ⟨_, by rw [if_pos (UInt32.not_le.1 hretries)]; rfl, .retries hretries⟩
  rw [if_neg (UInt32.not_lt.2 hretries)]
  cases hjitter : s.jitter.isFraction with
  | false => exact .inr ⟨_, rfl, .jitter (by simp [hjitter])⟩
  | true => exact .inl ⟨rfl, htimeout, hwait, hretries, hjitter⟩

theorem validate_eq_ok_iff : s.validate = .ok () ↔ s.Valid := by
  obtain ⟨hok, hvalid⟩ | ⟨e, herror, hblames⟩ := s.validate_cases
  · exact iff_of_true hok hvalid
  · exact iff_of_false (by simp [herror]) hblames.not_valid

end LockSettings

namespace Settings

variable {s : Settings}

/-- The settings of the lock manager are valid, and the filter says something. -/
structure Valid (s : Settings) : Prop where
  locking : s.locking.Valid
  filter : Text.trim s.filter ≠ ""

theorem validate_eq_ok_iff : s.validate = .ok () ↔ s.Valid := by
  unfold validate
  obtain ⟨hok, hvalid⟩ | ⟨e, herror, hblames⟩ := s.locking.validate_cases
  · rw [hok]
    by_cases hfilter : Text.trim s.filter = ""
    · exact iff_of_false (by rw [if_pos hfilter]; nofun) fun h => h.filter hfilter
    · exact iff_of_true (by rw [if_neg hfilter]; rfl) ⟨hvalid, hfilter⟩
  · rw [herror]
    exact iff_of_false nofun fun h => hblames.not_valid h.locking

/-- Settings that nobody has given are valid. -/
theorem valid_default : ({} : Settings).Valid where
  locking := by constructor <;> decide +kernel
  filter := by decide +kernel

end Settings

end SceneLocks

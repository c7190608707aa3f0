import SceneLocks.Proofs.Settings.Validity
import SceneLocks.Settings.File

/-!
# Overrides

A load merges what the variables say, what the file names and the defaults, in this order, and both
the file and the outcome have to be valid. So variables override what a file holds as long as that
is valid: a file with a bad number is refused although a variable puts a good one in its place.
-/

namespace SceneLocks

open Number Time

/-! ## What a file names -/

/-- The settings of the lock manager that a file names. -/
structure NamedLocks where
  timeout : Option Binary64 := none
  retries : Option UInt32 := none
  wait : Option Binary64 := none
  jitter : Option Binary64 := none
deriving DecidableEq

/-- The settings that a file names. -/
structure Named where
  locking : NamedLocks := {}
  filter : Option String := none
deriving DecidableEq

/-- A setting that a file may leave out. -/
def Toml.field? {α : Type} (f : Toml → Option α) (v : Option Toml) : Option (Option α) :=
  orElse none (fun v => (f v).map some) v

def NamedLocks.ofToml? (v : Toml) : Option NamedLocks := do
  match ← v.fields?
    ["lock_timeout_seconds", "lock_retries", "lock_retry_wait_seconds", "retry_jitter"] with
  | [timeout, retries, wait, jitter] =>
    some {
      timeout := ← Toml.field? Toml.double? timeout
      retries := ← Toml.field? Toml.count? retries
      wait := ← Toml.field? Toml.double? wait
      jitter := ← Toml.field? Toml.double? jitter }
  | _ => none

/-- The filter that a logging section names. -/
def Named.filterOfToml? (v : Toml) : Option (Option String) := do
  match ← v.fields? ["filter"] with
  | [filter] => Toml.field? Toml.string? filter
  | _ => none

def Named.ofToml? (v : Toml) : Option Named := do
  match ← v.fields? ["locking", "logging"] with
  | [locking, logging] =>
    some {
      locking := ← Toml.orElse {} NamedLocks.ofToml? locking
      filter := ← Toml.orElse none Named.filterOfToml? logging }
  | _ => none

/-- Settings that are not named have their defaults. -/
def NamedLocks.settings (n : NamedLocks) : LockSettings :=
  let d : LockSettings := {}
  { timeout := n.timeout.getD d.timeout
    retries := n.retries.getD d.retries
    wait := n.wait.getD d.wait
    jitter := n.jitter.getD d.jitter }

/-- Settings that are not named have their defaults. -/
def Named.settings (n : Named) : Settings :=
  let d : Settings := {}
  { locking := n.locking.settings
    filter := n.filter.getD d.filter }

/-- What the file at a path names, if settings can be read there. Without a file, nothing is. -/
def FileContent.named? (content : FileContent) : Option Named :=
  match content.text with
  | .error fault => if fault.isAbsence then some {} else none
  | .ok text => (Toml.read? text).bind fun t => Named.ofToml? t.value

namespace Toml

variable {α β : Type}

theorem map_orElse (g : α → β) (default : α) (f : Toml → Option α) (v : Option Toml) :
    (orElse default f v).map g = orElse (g default) (fun v => (f v).map g) v := by
  cases v <;> rfl

theorem orElse_eq_field? (default : α) (f : Toml → Option α) (v : Option Toml) :
    orElse default f v = (field? f v).map (·.getD default) := by
  simp [field?, map_orElse, Function.comp_def]

end Toml

theorem NamedLocks.map_ofToml? (v : Toml) :
    (NamedLocks.ofToml? v).map NamedLocks.settings = LockSettings.ofToml? v := by
  unfold NamedLocks.ofToml? LockSettings.ofToml?
  simp only [Toml.orElse_eq_field?, Option.bind_eq_bind, Option.map_bind]
  congr 1
  funext fields
  rcases fields with _ | ⟨timeout, _ | ⟨retries, _ | ⟨wait, _ | ⟨jitter, _ | ⟨_, _⟩⟩⟩⟩⟩
  case cons.cons.cons.cons.nil =>
    simp [Option.map_bind, Option.bind_map, Function.comp_def, settings]
  all_goals rfl

theorem Named.map_filterOfToml? (v : Toml) (default : String) :
    (Named.filterOfToml? v).map (·.getD default) = Settings.filterOfToml? default v := by
  unfold Named.filterOfToml? Settings.filterOfToml?
  simp only [Toml.orElse_eq_field?, Option.bind_eq_bind, Option.map_bind]
  congr 1
  funext fields
  rcases fields with _ | ⟨filter, _ | ⟨_, _⟩⟩ <;> rfl

theorem Named.map_ofToml? (v : Toml) :
    (Named.ofToml? v).map Named.settings = Settings.ofToml? v := by
  unfold Named.ofToml? Settings.ofToml?
  simp only [Option.bind_eq_bind, Option.map_bind]
  congr 1
  funext fields
  rcases fields with _ | ⟨locking, _ | ⟨logging, _ | ⟨_, _⟩⟩⟩
  case cons.cons.nil =>
    have hlocking : (Toml.orElse {} NamedLocks.ofToml? locking).map NamedLocks.settings =
        Toml.orElse {} LockSettings.ofToml? locking := by
      simp only [Toml.map_orElse, NamedLocks.map_ofToml?]
      rfl
    have hlogging : (Toml.orElse none filterOfToml? logging).map (·.getD "info") =
        Toml.orElse "info" (Settings.filterOfToml? "info") logging := by
      simp only [Toml.map_orElse, map_filterOfToml?]
      rfl
    simp [← hlocking, ← hlogging, Option.map_bind, Option.bind_map, Function.comp_def, settings]
  all_goals rfl

/-! ## What variables put in its place -/

/-- A value after its override: what the variable spells if it is set, else the one given. -/
def overridden? {α : Type} (read? : String → Option α) (given : α) : Option String → Option α
  | none => some given
  | some text => read? (Text.trim text)

namespace Settings

/-- The settings with what the variables say, if each one that is set spells its setting. -/
def merged? (lookup? : String → Option String) (s : Settings) : Option Settings := do
  let timeout ← overridden? Binary64.read? s.locking.timeout (lookup? Override.timeout.name)
  let retries ← overridden? readCount? s.locking.retries (lookup? Override.retries.name)
  let wait ← overridden? Binary64.read? s.locking.wait (lookup? Override.wait.name)
  return {
    locking := { timeout, retries, wait, jitter := s.locking.jitter }
    filter := s.filter }

end Settings

namespace Override

/-- The settings with what one variable says. -/
def put? (lookup? : String → Option String) (s : Settings) : Override → Option Settings
  | .timeout =>
    (overridden? Binary64.read? s.locking.timeout (lookup? timeout.name)).map
      fun x => { s with locking.timeout := x }
  | .retries =>
    (overridden? readCount? s.locking.retries (lookup? retries.name)).map
      fun n => { s with locking.retries := n }
  | .wait =>
    (overridden? Binary64.read? s.locking.wait (lookup? wait.name)).map
      fun x => { s with locking.wait := x }

theorem put?_of_unset {lookup? : String → Option String} {o : Override} (s : Settings)
    (h : lookup? o.name = none) : o.put? lookup? s = some s := by
  cases o <;> simp [put?, h, overridden?]

theorem put?_of_set {lookup? : String → Option String} {o : Override} {text : String}
    (s : Settings) (h : lookup? o.name = some text) : o.put? lookup? s = o.assign? s text := by
  cases o <;> simp [put?, h, overridden?, assign?]

end Override

namespace Settings

variable {lookup? : String → Option String} {s s' : Settings}

theorem overrideWith_eq_ok_iff (os : List Override) :
    overrideWith lookup? os s = (s', .ok ()) ↔
      os.foldlM (Override.put? lookup?) s = some s' := by
  induction os generalizing s with
  | nil => simp [overrideWith]
  | cons o os ih =>
    rw [List.foldlM_cons]
    cases h : lookup? o.name with
    | none => simp [overrideWith, h, Override.put?_of_unset, ih]
    | some text => cases hassign : o.assign? s text <;>
        simp [overrideWith, h, Override.put?_of_set, hassign, ih]

theorem override_eq_ok_iff :
    s.override lookup? = (s', .ok ()) ↔ s.merged? lookup? = some s' := by
  rw [override, overrideWith_eq_ok_iff]
  simp only [Override.all, List.foldlM_cons, List.foldlM_nil, Override.put?, merged?,
    Option.bind_eq_bind, Option.bind_map, Function.comp_def, Option.pure_def]

end Settings

/-! ## What stays as it was given -/

namespace Override

variable {s s' : Settings} {o : Override}

/-- The setting is a valid one. -/
def Accepts (s : Settings) : Override → Prop
  | .timeout => (Duration.ofSeconds? s.locking.timeout).isSome
  | .retries => 1 ≤ s.locking.retries
  | .wait => (Duration.ofSeconds? s.locking.wait).isSome

instance (s : Settings) : DecidablePred (Accepts s)
  | .timeout => inferInstanceAs (Decidable ((Duration.ofSeconds? s.locking.timeout).isSome = true))
  | .retries => inferInstanceAs (Decidable (1 ≤ s.locking.retries))
  | .wait => inferInstanceAs (Decidable ((Duration.ofSeconds? s.locking.wait).isSome = true))

/-- The setting is the same on both sides. -/
def Agrees (s s' : Settings) : Override → Prop
  | .timeout => s.locking.timeout = s'.locking.timeout
  | .retries => s.locking.retries = s'.locking.retries
  | .wait => s.locking.wait = s'.locking.wait

theorem Agrees.accepts_iff (h : o.Agrees s s') : o.Accepts s ↔ o.Accepts s' := by
  cases o <;> simp_all [Agrees, Accepts]

end Override

namespace Settings

variable {lookup? : String → Option String} {s s' : Settings}

theorem valid_iff :
    s.Valid ↔ (∀ o : Override, o.Accepts s) ∧
      s.locking.jitter.isFraction ∧ Text.trim s.filter ≠ "" := by
  constructor
  · rintro ⟨hlocking, hfilter⟩
    refine ⟨fun o => ?_, hlocking.jitter, hfilter⟩
    cases o with
    | timeout => exact hlocking.timeout
    | retries => exact hlocking.retries
    | wait => exact hlocking.wait
  · rintro ⟨haccepts, hjitter, hfilter⟩
    exact ⟨⟨haccepts .timeout, haccepts .wait, haccepts .retries, hjitter⟩, hfilter⟩

/-- Settings that differ at most in what the variables override that are set. -/
structure SameBeside (lookup? : String → Option String) (s s' : Settings) : Prop where
  unset : ∀ o : Override, lookup? o.name = none → o.Agrees s s'
  jitter : s.locking.jitter = s'.locking.jitter
  filter : s.filter = s'.filter

/-- What is overridden was valid before. -/
def ValidBeneath (lookup? : String → Option String) (s : Settings) : Prop :=
  ∀ o : Override, (lookup? o.name).isSome → o.Accepts s

theorem overridden?_congr {α : Type} {read? : String → Option α} {given given' : α}
    {set? : Option String} (h : set? = none → given = given') :
    overridden? read? given set? = overridden? read? given' set? := by
  cases set? with
  | none => rw [h rfl]
  | some text => rfl

theorem SameBeside.merged?_eq (h : SameBeside lookup? s s') :
    s.merged? lookup? = s'.merged? lookup? := by
  unfold merged?
  rw [overridden?_congr (h.unset .timeout), overridden?_congr (h.unset .retries),
    overridden?_congr (h.unset .wait), h.jitter, h.filter]

theorem sameBeside_of_merged? (h : s.merged? lookup? = some s') : SameBeside lookup? s s' := by
  simp only [merged?, Option.bind_eq_bind, Option.bind_eq_some_iff, Option.pure_def,
    Option.some.injEq] at h
  obtain ⟨timeout, htimeout, retries, hretries, wait, hwait, rfl⟩ := h
  refine ⟨fun o hunset => ?_, rfl, rfl⟩
  cases o with
  | timeout => exact Option.some.inj (by rwa [hunset] at htimeout)
  | retries => exact Option.some.inj (by rwa [hunset] at hretries)
  | wait => exact Option.some.inj (by rwa [hunset] at hwait)

/-- Beside valid settings, only what is overridden can be invalid. -/
theorem SameBeside.valid_iff (h : SameBeside lookup? s s') (hvalid : s'.Valid) :
    s.Valid ↔ s.ValidBeneath lookup? := by
  obtain ⟨haccepts, hjitter, hfilter⟩ := Settings.valid_iff.1 hvalid
  rw [Settings.valid_iff]
  constructor
  · exact fun hs o _ => hs.1 o
  · intro hbeneath
    refine ⟨fun o => ?_, h.jitter ▸ hjitter, h.filter ▸ hfilter⟩
    cases hset : lookup? o.name with
    | none => exact (h.unset o hset).accepts_iff.2 (haccepts o)
    | some text => exact hbeneath o (by rw [hset]; rfl)

end Settings

/-! ## Loading -/

section

variable {ε ε' α β : Type}

theorem bind_eq_ok_iff {x : Except ε α} {f : α → Except ε β} {b : β} :
    x >>= f = .ok b ↔ ∃ a, x = .ok a ∧ f a = .ok b := by
  cases x <;> simp [bind, Except.bind]

theorem mapError_eq_ok_iff {x : Except ε α} {f : ε → ε'} {a : α} :
    x.mapError f = .ok a ↔ x = .ok a := by
  cases x with
  | error e => exact iff_of_false nofun nofun
  | ok b => exact ⟨fun h => congrArg _ (Except.ok.inj h), fun h => congrArg _ (Except.ok.inj h)⟩

end

namespace Settings

variable {s : Settings} {n n' : Named} {content content' : FileContent}

theorem loadFrom_eq_ok_iff (path : String) (h : content.named? = some n) :
    loadFrom path content = .ok s ↔ n.settings.Valid ∧ n.settings = s := by
  unfold FileContent.named? at h
  unfold loadFrom
  cases htext : content.text with
  | error fault =>
    simp only [htext, Option.ite_none_right_eq_some, Option.some.injEq] at h
    obtain ⟨habsence, rfl⟩ := h
    have hdefault : ({} : Named).settings = ({} : Settings) := rfl
    simp [habsence, hdefault, valid_default]
  | ok text =>
    simp only [htext, Option.bind_eq_some_iff] at h
    obtain ⟨t, ht, hn⟩ := h
    have hread : read? text = some n.settings := by
      rw [read?, ht, Option.bind_some, ← Named.map_ofToml?, hn, Option.map_some]
    simp only [hread, bind_eq_ok_iff, mapError_eq_ok_iff]
    constructor
    · rintro ⟨_, hvalid, heq⟩
      exact ⟨validate_eq_ok_iff.1 hvalid, Except.ok.inj heq⟩
    · rintro ⟨hvalid, rfl⟩
      exact ⟨(), validate_eq_ok_iff.2 hvalid, rfl⟩

theorem load_eq_ok_iff (env : Environment) (h : content.named? = some n) :
    load env content = .ok s ↔
      (∃ path, env.settingsPath = .ok path) ∧ n.settings.Valid ∧
        n.settings.merged? env.lookup? = some s ∧ s.validate = .ok () := by
  unfold load
  simp only [bind_eq_ok_iff, mapError_eq_ok_iff, loadFrom_eq_ok_iff _ h, ← override_eq_ok_iff]
  constructor
  · rintro ⟨path, hpath, _, ⟨hvalid, rfl⟩, _, hoverridden, _, hmerged, hs⟩
    cases hs
    exact ⟨⟨path, hpath⟩, hvalid, Prod.ext rfl hoverridden, hmerged⟩
  · rintro ⟨⟨path, hpath⟩, hvalid, hoverride, hmerged⟩
    refine ⟨path, hpath, _, ⟨hvalid, rfl⟩, (), ?_, (), ?_, ?_⟩ <;> rw [hoverride]
    · exact hmerged
    · rfl

/-- An environment turns settings into others: it says where the file is, every variable that is
set spells its setting, and the outcome is valid. -/
structure Merges (env : Environment) (given s : Settings) : Prop where
  path : ∃ path, env.settingsPath = .ok path
  merged : given.merged? env.lookup? = some s
  valid : s.validate = .ok ()

theorem SameBeside.merges_iff {env : Environment} {given given' : Settings}
    (h : SameBeside env.lookup? given given') : Merges env given s ↔ Merges env given' s :=
  ⟨fun ⟨hpath, hmerged, hvalid⟩ => ⟨hpath, h.merged?_eq ▸ hmerged, hvalid⟩,
    fun ⟨hpath, hmerged, hvalid⟩ => ⟨hpath, h.merged?_eq ▸ hmerged, hvalid⟩⟩

theorem load_eq_ok_iff_merges (env : Environment) (h : content.named? = some n) :
    load env content = .ok s ↔
      Merges env n.settings s ∧ n.settings.ValidBeneath env.lookup? := by
  rw [load_eq_ok_iff env h]
  constructor
  · rintro ⟨hpath, hgiven, hmerged, hvalid⟩
    have hbeside := sameBeside_of_merged? hmerged
    exact ⟨⟨hpath, hmerged, hvalid⟩, (hbeside.valid_iff (validate_eq_ok_iff.1 hvalid)).1 hgiven⟩
  · rintro ⟨⟨hpath, hmerged, hvalid⟩, hbeneath⟩
    have hbeside := sameBeside_of_merged? hmerged
    exact ⟨hpath, (hbeside.valid_iff (validate_eq_ok_iff.1 hvalid)).2 hbeneath, hmerged, hvalid⟩

theorem toOption_eq_some_iff {ε α : Type} {x : Except ε α} {a : α} :
    x.toOption = some a ↔ x = .ok a := by
  cases x <;> simp [Except.toOption]

/-- A load of a file with settings yields exactly what is merged from the variables, the file and
the defaults, as long as the file has valid values where they are overridden. So two files that
differ only there lead to the same outcome, unless there is something to be loaded and just one of
them has an invalid value there. -/
theorem load_merged (env : Environment) :
    (∀ content n s, content.named? = some n →
      (load env content = .ok s ↔
        Merges env n.settings s ∧ n.settings.ValidBeneath env.lookup?)) ∧
    ∀ content content' n n', content.named? = some n → content'.named? = some n' →
      SameBeside env.lookup? n.settings n'.settings →
      ((load env content).toOption = (load env content').toOption ↔
        ((∃ s, Merges env n.settings s) →
          (n.settings.ValidBeneath env.lookup? ↔ n'.settings.ValidBeneath env.lookup?))) := by
  refine ⟨fun content n s h => load_eq_ok_iff_merges env h, ?_⟩
  intro content content' n n' hn hn' hsame
  have hloads s : (load env content).toOption = some s ↔
      Merges env n.settings s ∧ n.settings.ValidBeneath env.lookup? := by
    rw [toOption_eq_some_iff, load_eq_ok_iff_merges env hn]
  have hloads' s : (load env content').toOption = some s ↔
      Merges env n.settings s ∧ n'.settings.ValidBeneath env.lookup? := by
    rw [toOption_eq_some_iff, load_eq_ok_iff_merges env hn', hsame.merges_iff]
  constructor
  · rintro hsameOutcome ⟨s, hmerges⟩
    rw [hsameOutcome] at hloads
    exact and_congr_right_iff.1 ((hloads s).symm.trans (hloads' s)) hmerges
  · intro hbeneath
    ext s
    rw [hloads, hloads']
    exact and_congr_right fun hmerges => hbeneath ⟨s, hmerges⟩

end Settings

/-- An environment with a grace period of one minute. -/
def Environment.minute : Environment where
  lookup? name :=
    if name = "ARSERVER_CONFIG_DIR" then some "/etc/arserver"
    else if name = "ARSERVER_LOCK_TIMEOUT" then some "60"
    else none

/-- A file with a grace period. -/
def FileContent.timeout (number : String) : FileContent :=
  .bytes ("[locking]\nlock_timeout_seconds = " ++ number ++ "\n").toUTF8

/-- A negative grace period in the file spoils the load although a variable overrides it. -/
theorem Settings.load_merged_negativeTimeout :
    ∃ n n' : Named, (FileContent.timeout "-1.0").named? = some n ∧
      (FileContent.timeout "5.0").named? = some n' ∧
      SameBeside Environment.minute.lookup? n.settings n'.settings ∧
      (load .minute (.timeout "-1.0")).toOption ≠ (load .minute (.timeout "5.0")).toOption := by
  let n : Named := { locking := { timeout := some (.ofDecimal true 1 0) } }
  let n' : Named := { locking := { timeout := some (.ofDecimal false 5 0) } }
  have hn : (FileContent.timeout "-1.0").named? = some n := by decide +kernel
  have hn' : (FileContent.timeout "5.0").named? = some n' := by decide +kernel
  have hunset : ∀ o, (Environment.minute.lookup? (Override.name o)).isSome → o = .timeout := by
    intro o
    cases o <;> decide +kernel
  have hsame : SameBeside Environment.minute.lookup? n.settings n'.settings := by
    refine ⟨fun o ho => ?_, rfl, rfl⟩
    cases o with
    | timeout => exact absurd ho (by decide +kernel)
    | retries => rfl
    | wait => rfl
  have hvalid : Settings.Valid { locking.timeout := .ofDecimal false 60 0 } :=
    ⟨{ valid_default.locking with timeout := by decide +kernel }, valid_default.filter⟩
  have hmerges : Merges .minute n.settings { locking.timeout := .ofDecimal false 60 0 } :=
    ⟨⟨_, rfl⟩, by decide +kernel, validate_eq_ok_iff.2 hvalid⟩
  refine ⟨n, n', hn, hn', hsame, fun hload => ?_⟩
  have hbeneath := (load_merged .minute).2 _ _ n n' hn hn' hsame |>.1 hload ⟨_, hmerges⟩
  have hbad : ¬ Override.timeout.Accepts n.settings := by decide +kernel
  refine hbad (hbeneath.2 (fun o ho => ?_) .timeout (by decide +kernel))
  rw [hunset o ho]
  decide +kernel

end SceneLocks

import Deeplink.Http.Lifetime
import Deeplink.Proofs.Log.Levels
import Deeplink.Proofs.Settings.LogLevel
import Deeplink.Proofs.Task.Work

/-!
# Starting up with any level

The settings take any text as the level of the log. Whether the service starts with it is decided
where the log is set up. The log is set up when the service starts, with the level of the settings
(specification, 10.1 and 10.2).

- `Http.Service.prepared`: the application with its log set up.
- `Http.Service.startUp_eq`: starting up ends as setting up the log does.
- `Http.Service.LevelReading`: what becomes of one text as the level, in the settings, in the log
  and at the start.
- `Http.Service.every_level_read`: it holds of every text.
-/

namespace Deeplink.Http.Service

open Log (Means Misread Form)

variable {ρ : Type} {s : Service ρ} {app : App ρ} {current : Settings} {wasBuilt : Bool}
  {fault : Log.LevelFault}

/-! ## Starting up -/

/-- The application with its log set up, whether or not the level could be set. -/
def prepared (current : Settings) (app : App ρ) : App ρ :=
  { app with
    settings := app.settings.get.2
    root := (app.root.setUp current.logLevel current.logFormat).2 }

/-- What the service says when it has started. -/
def startNotice (s : Service ρ) : Log.Notice :=
  { level := .info
    source := .service
    message := "Hash Commands API started with methods "
      ++ Text.quotedList (Text.sorted s.dispatcher.methods) }

theorem settings_apply (h : app.settings.get.1 = .ok (current, wasBuilt)) :
    settings app = ⟨.ok current, { app with settings := app.settings.get.2 }, []⟩ := by
  have hcurrent : (App.onSettings FragmentRequest.current app).result = .ok (.ok current) := by
    show Except.ok (app.settings.get.1.map Prod.fst) = _
    rw [h]
    rfl
  rw [settings, Act.bind_of_ok hcurrent]
  rfl

theorem setUpLog_apply (level form : Text) (app : App ρ) :
    setUpLog level form app
      = ⟨(app.root.setUp level form).1.mapError fun fault => Failure.of (.level fault),
        { app with root := (app.root.setUp level form).2 }, []⟩ := by
  rfl

/-- **Starting up ends as setting up the log does**; what the log has become by then stays. -/
theorem startUp_eq (h : app.settings.get.1 = .ok (current, wasBuilt)) (s : Service ρ) :
    s.startUp app = match (app.root.setUp current.logLevel current.logFormat).1 with
      | .ok () => ⟨.ok (), prepared current app, [.notice s.startNotice]⟩
      | .error fault => ⟨.error (Failure.of (.level fault)), prepared current app, []⟩ := by
  have hsettings := settings_apply h
  rw [startUp, Act.bind_of_ok (congrArg Outcome.result hsettings), hsettings]
  have hsetUp := setUpLog_apply current.logLevel current.logFormat
    { app with settings := app.settings.get.2 }
  cases hresult : (app.root.setUp current.logLevel current.logFormat).1 with
  | error fault =>
    rw [hresult] at hsetUp
    rw [Act.bind_of_error (congrArg Outcome.result hsetUp), hsetUp]
    rfl
  | ok done =>
    rw [hresult] at hsetUp
    rw [Act.bind_of_ok (congrArg Outcome.result hsetUp), hsetUp]
    rfl

/-- The service starts exactly if the log is set up. -/
theorem startUp_ok_iff (h : app.settings.get.1 = .ok (current, wasBuilt)) :
    (s.startUp app).result = .ok ()
      ↔ (app.root.setUp current.logLevel current.logFormat).1 = .ok () := by
  rw [startUp_eq h]
  cases (app.root.setUp current.logLevel current.logFormat).1 with
  | error fault => simp
  | ok done => simp

/-- It fails as setting up the log fails. -/
theorem startUp_error_iff (h : app.settings.get.1 = .ok (current, wasBuilt)) :
    (s.startUp app).result = .error (Failure.of (.level fault))
      ↔ (app.root.setUp current.logLevel current.logFormat).1 = .error fault := by
  rw [startUp_eq h]
  cases (app.root.setUp current.logLevel current.logFormat).1 with
  | error fault => simp [Failure.of]
  | ok done => simp

theorem startUp_state (h : app.settings.get.1 = .ok (current, wasBuilt)) (s : Service ρ) :
    (s.startUp app).state = prepared current app := by
  rw [startUp_eq h]
  cases (app.root.setUp current.logLevel current.logFormat).1 with
  | error fault => rfl
  | ok done => rfl

/-! ## Levels -/

/-- What becomes of a text as the level of the log. -/
structure LevelReading (s : Service ρ) (level : Text) : Prop where
  /-- It means one level. -/
  meaning : ∃! n, Means level n
  /-- The settings take it as it is, whatever else is in them, -/
  taken {env env' : Environment} (henv : ∀ f ≠ .logLevel, env.field? f = env'.field? f)
      (hlevel : env'.field? .logLevel = some level) :
    Settings.build [] env' = (Settings.build [] env).map (Settings.withLevel level)
  /-- so that it is the level of the settings. -/
  given {env : Environment} {current : Settings} (hbuild : Settings.build [] env = .ok current)
      (hlevel : env.field? .logLevel = some level) : current.logLevel = level
  /-- The log is set up with the level that it means, unless it is misread. -/
  setUp (r : Log.Root) (form : Text) {n : Int} (hn : Means level n) :
    r.setUp level form = (.ok (), { r.install (Form.ofName form) with level := n })
      ↔ ¬ ∃ fault, Misread level fault
  /-- If it is misread, the handler is new and the level is as before. -/
  misread (r : Log.Root) (form : Text) (fault : Log.LevelFault) :
    r.setUp level form = (.error fault, r.install (Form.ofName form)) ↔ Misread level fault
  /-- The service starts with it, unless it is misread. -/
  started {app : App ρ} {current : Settings} {wasBuilt : Bool}
      (hsettings : app.settings.get.1 = .ok (current, wasBuilt))
      (hlevel : current.logLevel = level) :
    (s.startUp app).result = .ok () ↔ ¬ ∃ fault, Misread level fault
  /-- If it is misread, the service does not start. -/
  failed {app : App ρ} {current : Settings} {wasBuilt : Bool}
      (hsettings : app.settings.get.1 = .ok (current, wasBuilt))
      (hlevel : current.logLevel = level) (fault : Log.LevelFault) :
    (s.startUp app).result = .error (Failure.of (.level fault)) ↔ Misread level fault
  /-- Either way the log is what setting it up has left. -/
  root {app : App ρ} {current : Settings} {wasBuilt : Bool}
      (hsettings : app.settings.get.1 = .ok (current, wasBuilt))
      (hlevel : current.logLevel = level) :
    (s.startUp app).state.root = (app.root.setUp level current.logFormat).2

/-- **Every text is tolerated as a level but those that are misread.** Where the service reads its
settings, any text will do; the level that the text means is set, and the service starts. The two
names of settings of the logging system are found in place of a level, and then the level stays as
it was, and the service does not start. -/
theorem every_level_read (s : Service ρ) (level : Text) : LevelReading s level where
  meaning := Log.means_unique level
  taken henv hlevel := by
    rw [Settings.build_level henv, hlevel]
    rfl
  given hbuild hlevel := by
    rw [Settings.logLevel_of_build hbuild, hlevel]
    rfl
  setUp r form _ hn := by
    constructor
    · intro hsetUp
      exact Log.Root.setLevel_succeeds_iff.mp (congrArg Prod.fst hsetUp)
    · intro hread
      exact Log.Root.setLevel_of_means hn hread _
  misread r form fault := by
    constructor
    · intro hsetUp
      exact Log.Root.setLevel_fails_iff.mp (congrArg Prod.fst hsetUp)
    · intro hread
      exact Log.Root.setLevel_of_misread hread _
  started hsettings hlevel := by
    subst hlevel
    rw [startUp_ok_iff hsettings]
    exact Log.Root.setLevel_succeeds_iff
  failed hsettings hlevel fault := by
    subst hlevel
    rw [startUp_error_iff hsettings]
    exact Log.Root.setLevel_fails_iff
  root hsettings hlevel := by
    subst hlevel
    rw [startUp_state hsettings, prepared]

/-- A service without families. -/
def bare : Service Unit := ⟨⟨[], none⟩, .standard ⟨[]⟩, []⟩

/-- An application with a level that is the name of another setting of the logging system. -/
def patternApp : App Unit :=
  { desk := ⟨[], ()⟩
    settings := { environment := [("HASH_COMMANDS_LOG_LEVEL", "basic_format")] } }

/-- Its settings are good, but it does not start, and the level is as before. -/
theorem pattern_not_started :
    patternApp.settings.get.1
        = .ok (Settings.withLevel "basic_format" Settings.defaults, false)
      ∧ Means "basic_format" 20
      ∧ (bare.startUp patternApp).result
        = .error (Failure.of (.level (.unknown Log.recordFormat)))
      ∧ (bare.startUp patternApp).state.root = patternApp.root.install .jsonLines := by
  have hsettings : patternApp.settings.get.1
      = .ok (Settings.withLevel "basic_format" Settings.defaults, false) := by rfl
  have hread : Misread "basic_format" (.unknown Log.recordFormat) :=
    .recordFormat (Log.capitals?_eq_some_iff.mp (by decide))
  have hreading := every_level_read bare "basic_format"
  refine ⟨hsettings, hread.means, (hreading.failed hsettings rfl _).mpr hread, ?_⟩
  rw [hreading.root hsettings rfl]
  exact congrArg Prod.snd ((hreading.misread _ _ _).mpr hread)

end Deeplink.Http.Service

import ContractHost.Proofs.CommandLine.Steps

/-!
# Before a command starts

Before a command looks at its own arguments, the options before its name are read, then the configuration,
and the log is set up. If the log goes to no file, all of this only looks at the file of the
configuration, and changes nothing.

* `setUp`: what happens before a command starts.
* `setUp_reads`: it depends on nothing but the file of the configuration.
-/

namespace ContractHost.CommandLine

variable {α β : Type} {d : Directory} {view : FileSystem Id}

/-- What happens before a command looks at its own arguments. -/
def setUp [Room] {m : Type → Type} [Monad m] (around : Surroundings m) (args : List String) :
    ExceptT CommandError m (Config × Command × List String) := do
  let (given, others) ← (parse groupOptions false args).mapError CommandError.usage
  groupOptions.forM (checkOption around.files given)
  let (inside, others) ← (commands.enterFirst others).mapError CommandError.usage
  let config ← configure around given
  setUpLog around config
  let (command, args) ← (inside.resolve others).mapError CommandError.usage
  return (config, command, args)

theorem run_eq [Room] (around : Surroundings (StateM Directory)) (args : List String) :
    run around args = setUp around args >>= fun (config, command, args) =>
      runCommand around config command args := by
  unfold run setUp
  simp only [bind_assoc, pure_bind]

/-- The same settings and variables with other files, and the built-in interpreter. -/
def Surroundings.seeing (around : Surroundings (StateM Directory)) (view : FileSystem Id) :
    Surroundings Id where
  files := view
  settings := around.settings
  env := around.env
  vm := builtIn

/-- The file of the configuration that options name. -/
def configPath (env : Environment) (given : Arguments) : Path :=
  .ofText (Config.pathText env (given.text? "--config"))

/-! ## What is read -/

theorem Shows.load {env : Environment} {given : Option String}
    (h : Shows view d (.ofText (Config.pathText env given))) (settings : Settings) :
    (Config.load Directory.system settings env given).run d =
      (Config.load view settings env given, d) := by
  simp only [Config.load]
  rw [Directory.run_bind, Directory.isFile?_on, h.isFile?]
  cases hlook : d.look (.ofText (Config.pathText env given)) with
  | error fault => rfl
  | ok found =>
    cases found with
    | none => rfl
    | some entry =>
      show (Directory.system.read _ >>= _).run d = _
      rw [Directory.run_bind, Directory.read_on, ← h.read entry hlook]
      generalize view.read (.ofText (Config.pathText env given)) = bytes
      change Except Fault Bytes at bytes
      cases bytes <;> rfl

variable {around : Surroundings (StateM Directory)}

theorem Reads.configure (hfiles : around.files = Directory.system) {given : Arguments}
    (h : Shows view d (configPath around.env given)) :
    Reads d (configure around given) (CommandLine.configure (around.seeing view) given) := by
  unfold CommandLine.configure
  rw [hfiles]
  apply Reads.bind (Reads.orElse (h.load around.settings) _)
  intro config
  exact .pure _

variable [Room]

/-- A log that goes to no file is set up without a look at any. -/
theorem configureLog_on {settings : Settings} {request : Log.Request}
    (h : request.file? settings = none) (log : Log) (d : Directory) (view : FileSystem Id) :
    (Log.configure Directory.system settings request log).run d =
      (Log.configure view settings request log, d) := by
  unfold Log.configure
  split
  · rfl
  cases request.levelNumber settings with
  | error fault => rfl
  | ok level =>
    simp only
    cases Log.settingLayout settings with
    | error fault => rfl
    | ok layout =>
      simp only [h]
      rfl

theorem Reads.setUpLog (hfiles : around.files = Directory.system)
    (hlog : around.settings.fileOutput.value.truthy = false) (config : Config) :
    Reads d (setUpLog around config) (CommandLine.setUpLog (around.seeing view) config) := by
  have hfile (level : Option Text) :
      Log.Request.file? { level, again := true } around.settings = none := by
    simp [Log.Request.file?, hlog]
  have hlift := Reads.lift (configureLog_on (hfile (some config.logLevel)) {} d view)
  unfold CommandLine.setUpLog
  rw [hfiles]
  apply hlift.bind
  intro (done, log)
  exact .ofExcept _

/-- What happens before a command starts depends on nothing but the file of the configuration, if the
log goes to no file. -/
theorem setUp_reads (hfiles : around.files = Directory.system)
    (hlog : around.settings.fileOutput.value.truthy = false) {args : List String}
    (h : ∀ (given : Arguments) others, parse groupOptions false args = .ok (given, others) →
      Shows view d (configPath around.env given)) :
    Reads d (setUp around args) (setUp (around.seeing view) args) := by
  unfold setUp
  rw [hfiles]
  cases hparse : parse groupOptions false args with
  | error e => exact .throw _
  | ok parsed =>
    obtain ⟨given, others⟩ := parsed
    have hshows := h given others hparse
    show Reads d (groupOptions.forM (checkOption Directory.system given) >>= _)
      (groupOptions.forM (checkOption view given) >>= _)
    have hoptions : ∀ option ∈ groupOptions, option.expected = .anything ∨
        option.expected = .noDirectory ∧ option.name = "--config" := by
      decide
    apply Reads.bind
    · refine .forM fun option hoption => .checkOption fun value htext => ?_
      rcases hoptions option hoption with hexpected | ⟨-, hname⟩
      · exact Or.inl hexpected
      · rw [hname] at htext
        rw [configPath, htext] at hshows
        exact Or.inr (Or.inr hshows)
    intro _
    apply Reads.bind (.ofExcept _)
    intro (inside, others)
    apply Reads.bind (.configure hfiles hshows)
    intro config
    apply Reads.bind (.setUpLog hfiles hlog config)
    intro _
    apply Reads.bind (.ofExcept _)
    intro (command, args)
    exact .pure _

/-- The command on the state that a line names, where files look like that. -/
def Surroundings.names (around : Surroundings (StateM Directory)) (view : FileSystem Id)
    (line : List String) : Except CommandError Invocation := do
  match ← (setUp (around.seeing view) line).run with
  | (config, .state command, args) => .ok ⟨config, command, args⟩
  | (_, .coding _, _) => .error (.usage .missingCommand)

theorem Surroundings.setUp_of_names {line : List String} {i : Invocation}
    (h : around.names view line = .ok i) : (setUp (around.seeing view) line).run = .ok i.parts := by
  unfold names at h
  cases hrun : (setUp (around.seeing view) line).run with
  | error e =>
    rw [hrun] at h
    cases h
  | ok parts =>
    rw [hrun] at h
    obtain ⟨config, command, args⟩ := parts
    cases command with
    | state command =>
      cases h
      rfl
    | coding command => cases h

end ContractHost.CommandLine

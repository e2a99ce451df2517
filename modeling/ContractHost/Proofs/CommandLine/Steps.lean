import ContractHost.CommandLine.Run
import ContractHost.Proofs.Execution.Steps
import ContractHost.Proofs.Files.Directory

/-!
# Commands step by step

A command on the state that names no file of its own reads its arguments without a look at any file.
Only then it loads the state, acts on it, and saves what is to be kept.

* `Reads`: programs that change no file.
* `Invocation`: a command as it is given.
* `Invocation.perform_on`: what it does to a directory, step by step.
-/

namespace ContractHost.CommandLine

variable {α β : Type} {d : Directory}

/-- The result of a program, and the directory that it leaves. -/
def onFiles (program : ExceptT CommandError (StateM Directory) α) (d : Directory) :
    Except CommandError α × Directory :=
  program.run.run d

theorem onFiles_bind (program : ExceptT CommandError (StateM Directory) α)
    (next : α → ExceptT CommandError (StateM Directory) β) (d : Directory) :
    onFiles (program >>= next) d =
      match onFiles program d with
      | (.ok a, d) => onFiles (next a) d
      | (.error e, d) => (.error e, d) := by
  show (StateT.run (ExceptT.run program >>= ExceptT.bindCont next) d) = _
  rw [Directory.run_bind]
  unfold onFiles
  obtain ⟨result, d⟩ := program.run.run d
  cases result <;> rfl

theorem onFiles_orElse {ε : Type} (wrap : ε → CommandError)
    (program : StateM Directory (Except ε α)) (d : Directory) :
    onFiles (orElse wrap program) d =
      ((program.run d).1.mapError wrap, (program.run d).2) := rfl

/-! ## Programs that only read -/

/-- A program leaves a directory as it is, and has the result that it has on other files. -/
def Reads (d : Directory) (program : ExceptT CommandError (StateM Directory) α)
    (seen : ExceptT CommandError Id α) : Prop :=
  onFiles program d = (seen.run, d)

/-- Files that look like those of a directory at a path. -/
structure Shows (view : FileSystem Id) (d : Directory) (path : Path) : Prop where
  isFile? : view.isFile? path = (d.look path).map (·.map fun entry => entry matches .file _)
  read : ∀ entry, d.look path = .ok (some entry) → view.read path = d.read path

theorem Shows.holds {view : FileSystem Id} {value : String} (h : Shows view d (.ofText value))
    (expected : Expectation) :
    (expected.holds Directory.system value).run d = (expected.holds view value, d) := by
  cases expected with
  | anything => rfl
  | integer => rfl
  | noDirectory =>
    simp only [Expectation.holds]
    rw [Directory.run_bind, Directory.isFile?_on, h.isFile?]
    rfl
  | file =>
    simp only [Expectation.holds]
    rw [Directory.run_bind, Directory.isFile?_on, h.isFile?]
    rfl

namespace Reads

theorem pure (a : α) : Reads d (pure a) (pure a) := rfl

theorem throw (e : CommandError) : Reads d (throw e : ExceptT _ _ α) (throw e) := rfl

theorem bind {program : ExceptT CommandError (StateM Directory) α}
    {seen : ExceptT CommandError Id α} {next : α → ExceptT CommandError (StateM Directory) β}
    {rest : α → ExceptT CommandError Id β} (h : Reads d program seen)
    (hnext : ∀ a, Reads d (next a) (rest a)) : Reads d (program >>= next) (seen >>= rest) := by
  unfold Reads at h ⊢
  rw [onFiles_bind, h]
  show _ = ((ExceptT.run seen >>= ExceptT.bindCont rest : Id _), d)
  cases ExceptT.run seen with
  | error e => rfl
  | ok a => exact hnext a

theorem ofExcept (x : Except CommandError α) : Reads d (liftM x) (liftM x) := by
  cases x <;> rfl

theorem lift {program : StateM Directory α} {a : α} (h : program.run d = (a, d)) :
    Reads d (ExceptT.lift program) (ExceptT.lift (Pure.pure a)) := by
  show ((Except.ok (program.run d).1 : Except CommandError α), (program.run d).2) = _
  rw [h]
  rfl

theorem orElse {ε : Type} {program : StateM Directory (Except ε α)} {result : Except ε α}
    (h : program.run d = (result, d)) (wrap : ε → CommandError) :
    Reads d (orElse wrap program) (CommandLine.orElse wrap (Pure.pure result)) := by
  unfold Reads
  rw [onFiles_orElse, h]
  rfl

theorem forM {γ : Type} {items : List γ}
    {program : γ → ExceptT CommandError (StateM Directory) Unit}
    {seen : γ → ExceptT CommandError Id Unit}
    (h : ∀ item ∈ items, Reads d (program item) (seen item)) :
    Reads d (items.forM program) (items.forM seen) := by
  induction items with
  | nil => exact .pure _
  | cons item rest ih =>
    apply bind (h item List.mem_cons_self)
    intro _
    exact ih fun other hother => h other (List.mem_cons_of_mem item hother)

/-- Checks look at paths that are given, and at no other file. -/
theorem checkOption {view : FileSystem Id} {given : Arguments} {option : Opt}
    (h : ∀ value, given.text? option.name = some value → option.expected = .anything ∨
      option.expected = .integer ∨ Shows view d (.ofText value)) :
    Reads d (checkOption Directory.system given option)
      (CommandLine.checkOption view given option) := by
  unfold CommandLine.checkOption
  cases htext : given.text? option.name with
  | none =>
    simp only
    split
    · exact .throw _
    · exact .pure _
  | some value =>
    simp only
    split
    · exact .throw _
    have hholds : (option.expected.holds Directory.system value).run d =
        (option.expected.holds view value, d) := by
      rcases h value htext with hexpected | hexpected | hshows
      · rw [hexpected]
        rfl
      · rw [hexpected]
        rfl
      · exact hshows.holds _
    apply bind (lift hholds)
    intro holds
    cases holds
    · exact .throw _
    · exact .pure _

theorem readArguments {view : FileSystem Id} {options : List Opt} {args : List String}
    (h : ∀ (given : Arguments) others, parse options true args = .ok (given, others) →
      ∀ option ∈ options, ∀ value, given.text? option.name = some value →
        option.expected = .anything ∨ option.expected = .integer ∨ Shows view d (.ofText value)) :
    Reads d (readArguments Directory.system options args)
      (CommandLine.readArguments view options args) := by
  unfold CommandLine.readArguments
  cases hparse : parse options true args with
  | error e => exact .throw _
  | ok parsed =>
    obtain ⟨given, others⟩ := parsed
    apply bind
    · exact forM fun option hoption => checkOption (h given others hparse option hoption)
    intro _
    cases others
    · exact .pure _
    · exact .throw _

end Reads

/-! ## Arguments -/

/-- Files of which there is none. -/
def nowhere : FileSystem Id where
  isFile? _ := .ok none
  read _ := .error .noFile
  write _ _ := .error .noFile
  append _ _ := .error .noFile
  makeDirectories _ := .error .noFile

/-- The options of a command on the state that are no paths. -/
theorem options_of_state (command : StateCommand) : ∀ option ∈ (Command.state command).options,
    option.name = "--input-storage" ∨ option.name = "--output-storage" ∨
      option.expected = .anything ∨ option.expected = .integer := by
  cases command <;> decide

/-- The arguments that are read are those that are parsed. -/
theorem parse_of_readArguments {view : FileSystem Id} {options : List Opt} {args : List String}
    {given : Arguments} (h : (readArguments view options args).run = .ok given) :
    ∃ others, parse options true args = .ok (given, others) := by
  unfold readArguments at h
  cases hparse : parse options true args with
  | error e =>
    rw [hparse] at h
    cases h
  | ok parsed =>
    obtain ⟨found, others⟩ := parsed
    rw [hparse] at h
    change (ExceptT.run (options.forM (checkOption view found)) >>= ExceptT.bindCont _) = _ at h
    cases hchecks : ExceptT.run (options.forM (checkOption view found)) with
    | error e =>
      rw [hchecks] at h
      cases h
    | ok =>
      rw [hchecks] at h
      cases others with
      | nil =>
        cases h
        exact ⟨[], rfl⟩
      | cons extra more => cases h

/-! ## Commands -/

/-- A command on the state with its arguments, given under a configuration. -/
structure Invocation where
  config : Config
  command : StateCommand
  args : List String

namespace Invocation

/-- The configuration, the command and its arguments. -/
def parts (i : Invocation) : Config × Command × List String :=
  (i.config, .state i.command, i.args)

/-- Whether the arguments name no file for the state. -/
def namesNoFile (i : Invocation) : Bool :=
  match parse (Command.state i.command).options true i.args with
  | .ok (given, _) =>
    (Arguments.text? given "--input-storage").isNone &&
      (Arguments.text? given "--output-storage").isNone
  | .error _ => true

/-- The state is read from the file of the configuration, and kept there. -/
structure Defaults (i : Invocation) (file : Path) : Prop where
  stateFile : Path.ofText i.config.stateFile.shown = file
  namesNoFile : i.namesNoFile = true

/-- Runs a command. -/
def perform [Room] (around : Surroundings (StateM Directory)) (i : Invocation) :
    ExceptT CommandError (StateM Directory) Report :=
  runCommand around i.config (.state i.command) i.args

/-- The action that a command asks for, if its arguments are right. -/
def action (i : Invocation) : Except CommandError Action := do
  let given ← (readArguments nowhere (Command.state i.command).options i.args).run
  i.command.action i.config given

theorem Defaults.given {i : Invocation} {file : Path} (h : i.Defaults file)
    {given : Arguments} {others : List String}
    (hparse : parse (Command.state i.command).options true i.args = .ok (given, others)) :
    given.text? "--input-storage" = none ∧ given.text? "--output-storage" = none := by
  have hnames := h.namesNoFile
  rw [Invocation.namesNoFile, hparse, Bool.and_eq_true, Option.isNone_iff_eq_none,
    Option.isNone_iff_eq_none] at hnames
  exact hnames

theorem Defaults.paths {i : Invocation} {file : Path} (h : i.Defaults file)
    {given : Arguments} {others : List String}
    (hparse : parse (Command.state i.command).options true i.args = .ok (given, others)) :
    inputPath i.config given = file ∧ outputPath i.config given = file := by
  obtain ⟨hnoInput, hnoOutput⟩ := h.given hparse
  have hinput : inputPath i.config given = file := by
    rw [inputPath, hnoInput]
    exact h.stateFile
  refine ⟨hinput, ?_⟩
  rw [outputPath, hnoOutput]
  exact hinput

/-- Arguments that name no file are read without a look at any. -/
theorem Defaults.reads {i : Invocation} {file : Path} (h : i.Defaults file) :
    Reads d (readArguments Directory.system (Command.state i.command).options i.args)
      (readArguments nowhere (Command.state i.command).options i.args) := by
  refine .readArguments fun given others hparse option hoption value htext => ?_
  obtain ⟨hinput, houtput⟩ := h.given hparse
  rcases options_of_state i.command option hoption with hname | hname | hexpected
  · rw [hname, hinput] at htext
    cases htext
  · rw [hname, houtput] at htext
    cases htext
  · exact hexpected.imp_right Or.inl

theorem action_of_readArguments {i : Invocation} {result : Except CommandError Arguments}
    (h : (readArguments nowhere (Command.state i.command).options i.args).run = result) :
    i.action = result.bind (i.command.action i.config) := by
  unfold action
  rw [h]
  rfl

end Invocation

/-- What becomes of a directory after a command acted on the state: what is kept is saved, and only then
there is a report. -/
def concluded (output : Path) (result : Except CommandError (Report × Option HostState))
    (d : Directory) : Except CommandError Report × Directory :=
  match result with
  | .error e => (.error e, d)
  | .ok (report, none) => (.ok report, d)
  | .ok (report, some s) =>
    match (s.save Directory.system output).run d with
    | (.error failure, d) => (.error (.ofWithFault .snapshot failure), d)
    | (.ok (), d) => (.ok report, d)

theorem onFiles_conclude (output : Path) (result : Except CommandError (Report × Option HostState))
    (d : Directory) :
    onFiles (do
      let (report, kept) ← result
      if let some s := kept then
        orElse (.ofWithFault .snapshot) (s.save Directory.system output)
      return report) d = concluded output result d := by
  cases result with
  | error e => rfl
  | ok result =>
    obtain ⟨report, kept⟩ := result
    cases kept with
    | none => rfl
    | some s =>
      show onFiles (orElse (.ofWithFault .snapshot) (s.save Directory.system output) >>=
        fun _ => pure report) d = _
      rw [onFiles_bind, onFiles_orElse, concluded]
      generalize (s.save Directory.system output).run d = saved
      obtain ⟨result, d'⟩ := saved
      cases result <;> rfl

/-- A command on the state, step by step. The interpreter is found without a change of any file. -/
theorem runOn_on [Room] {around : Surroundings (StateM Directory)} (hfiles : around.files = Directory.system)
    {config : Config} {input : Path} (output : Path) (action : Action) {s : HostState}
    (hload : (HostState.load Directory.system input).run d = (.ok s, d))
    {vm : Except VmFailure Unit} (hvm : (around.vm config).run d = (vm, d)) :
    onFiles (runOn around config input output action) d =
      concluded output (action.apply config
        (if action.runs then vm.mapError (.ofWithFault .vm) else .ok ()) s) d := by
  have hloaded : onFiles (orElse (.ofWithFault .snapshot) (HostState.load around.files input)) d =
      (.ok s, d) := by
    rw [hfiles, onFiles_orElse, hload]
    rfl
  unfold runOn
  rw [onFiles_bind, hloaded]
  simp only [hfiles]
  cases action.runs with
  | false => exact onFiles_conclude output (action.apply config (.ok ()) s) d
  | true =>
    have hfound : onFiles (ExceptT.lift (around.vm config)) d = (.ok vm, d) := Reads.lift hvm
    rw [if_pos rfl, onFiles_bind, hfound]
    exact onFiles_conclude output (action.apply config (vm.mapError (.ofWithFault .vm)) s) d

/-- A command whose arguments name no file looks at them, loads the state, and acts on it. -/
theorem Invocation.perform_on [Room] {around : Surroundings (StateM Directory)}
    (hfiles : around.files = Directory.system) {file : Path} {i : Invocation} (h : i.Defaults file)
    (d : Directory) :
    onFiles (i.perform around) d =
      match i.action with
      | .error e => (.error e, d)
      | .ok action => onFiles (runOn around i.config file file action) d := by
  unfold perform runCommand
  rw [hfiles, onFiles_bind, h.reads]
  cases hgiven : (readArguments nowhere (Command.state i.command).options i.args).run with
  | error e =>
    rw [action_of_readArguments hgiven]
    rfl
  | ok given =>
    obtain ⟨others, hparse⟩ := parse_of_readArguments hgiven
    obtain ⟨hinput, houtput⟩ := h.paths hparse
    rw [action_of_readArguments hgiven]
    simp only [hinput, houtput, Except.bind]
    cases i.command.action i.config given <;> rfl

end ContractHost.CommandLine

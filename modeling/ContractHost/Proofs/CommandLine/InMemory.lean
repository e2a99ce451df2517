import ContractHost.Proofs.CommandLine.SetUp
import ContractHost.Proofs.CommandLine.Steps
import ContractHost.Proofs.State.Home

/-!
# One state in memory

Commands that keep their state in a file answer as if they worked on one state in memory, and the file
keeps that state. A command loads what the last one saved, which is the state that it left. If it has no
result it saves nothing, and the next one loads that state again.

* `inMemory`: what lines answer on one state in memory.
* `perform_keeps`, `run_keeps`: one command, and one line, on the file.
* `runAll_keeps`: lines in a row on the file.
-/

namespace ContractHost.CommandLine

/-! ## Results that count -/

/-- A result counts if the state to keep, if there is one, has a snapshot. -/
def withSnapshot (result : Except CommandError (Report × Option HostState)) :
    Except CommandError (Report × Option HostState) :=
  match result with
  | .error e => .error e
  | .ok (report, none) => .ok (report, none)
  | .ok (report, some s) =>
    match s.dumps with
    | .error fault => .error (.ofFault fault)
    | .ok _ => .ok (report, some s)

/-- A result becomes the answer if it counts, and then what it keeps is kept. -/
theorem concluded_keeps {d d' : Directory} {file : Path} {home : Home d file}
    {kept : Option HostState} {result : Except CommandError (Report × Option HostState)}
    (placed : ∀ report s, result = .ok (report, some s) → s.Placed) (h : home.Keeps kept d') :
    ∃ d'', concluded file result d' = ((withSnapshot result).map Prod.fst, d'') ∧
      home.Keeps (((withSnapshot result).toOption.bind Prod.snd).or kept) d'' := by
  match result with
  | .error e => exact ⟨d', rfl, h⟩
  | .ok (report, none) => exact ⟨d', rfl, h⟩
  | .ok (report, some s) =>
    have hsave := Home.save_of_keeps (placed report s rfl) h
    rw [HostState.toBytes_eq] at hsave
    simp only [concluded, withSnapshot]
    cases hdumps : s.dumps with
    | error fault =>
      -- the save stops before it writes, so at most the directories above the file are new
      rw [hdumps] at hsave
      obtain ⟨between, hkeeps, hsave⟩ := hsave
      have hfault : fault = .badValue := HostState.dumps_eq_error hdumps
      subst hfault
      rw [hsave]
      exact ⟨between, rfl, hkeeps⟩
    | ok text =>
      rw [hdumps] at hsave
      obtain ⟨hsave, hkeeps⟩ := hsave
      rw [hsave]
      exact ⟨_, rfl, hkeeps⟩

/-! ## Commands on a state in memory -/

variable [Room]

/-- What a command answers on a state, and the state to keep if there is one. -/
def Invocation.answer (vm : Config → Except VmFailure Unit) (i : Invocation) (s : HostState) :
    Except CommandError (Report × Option HostState) := do
  let action ← i.action
  let vm := if action.runs then (vm i.config).mapError (.ofWithFault .vm) else .ok ()
  withSnapshot (action.apply i.config vm s)

/-- What a line answers on a state, and the state to keep if there is one. -/
def answerLine (reads : List String → Except CommandError Invocation)
    (vm : Config → Except VmFailure Unit) (line : List String) (s : HostState) :
    Except CommandError (Report × Option HostState) := do
  let i ← reads line
  i.answer vm s

theorem answerLine_of_apply {reads : List String → Except CommandError Invocation}
    {vm : Config → Except VmFailure Unit} {line : List String} {i : Invocation} {action : Action}
    {s : HostState} {result : Except CommandError (Report × Option HostState)}
    (hreads : reads line = .ok i) (haction : i.action = .ok action) (hvm : vm i.config = .ok ())
    (happly : action.apply i.config (.ok ()) s = result) :
    answerLine reads vm line s = withSnapshot result := by
  have hfound : (if action.runs then (vm i.config).mapError (CommandError.ofWithFault .vm)
      else .ok ()) = .ok () := by
    rw [hvm]
    cases action.runs <;> rfl
  unfold answerLine
  rw [hreads]
  show i.answer vm s = _
  unfold Invocation.answer
  rw [haction, ← happly]
  show withSnapshot (action.apply i.config (if action.runs then _ else _) s) = _
  rw [hfound]

/-- What lines answer one after the other on one state, and the state that the last of those left that
kept one. -/
def inMemory (reads : List String → Except CommandError Invocation)
    (vm : Config → Except VmFailure Unit) :
    HostState → List (List String) → List (Except CommandError Report) × Option HostState
  | _, [] => ([], none)
  | s, line :: rest =>
    let result := answerLine reads vm line s
    let kept := result.toOption.bind Prod.snd
    let (answers, later) := inMemory reads vm (kept.getD s) rest
    (result.map Prod.fst :: answers, later.or kept)

/-- Runs the commands that lines name, one after the other. -/
def runAll (around : Surroundings (StateM Directory)) (lines : List (List String)) :
    StateM Directory (List (Except CommandError Report)) :=
  lines.mapM fun line => (run around line).run

/-! ## States that are kept -/

theorem Action.executed_placed {config : Config} {s s' : HostState} {message : Message}
    {showAddress : Bool} {report : Report} (placed : s.Placed)
    (h : executed config s message showAddress = .ok (report, some s')) : s'.Placed := by
  unfold executed at h
  cases htx : config.txContext.mapError CommandError.ofFault with
  | error e =>
    rw [htx] at h
    cases h
  | ok tx =>
    rw [htx] at h
    simp only [bind, Except.bind, execute] at h
    split at h
    · cases h
    · rename_i result hrun
      split at hrun
      · rename_i outcome w hcall
        cases hrun
        cases h
        apply HostState.Placed.call placed (Arena.Tidy.empty Host.baseKind) _ hcall
        show 0 < Handle.places
        decide
      · cases hrun

/-- What is kept has each account under its own address. -/
theorem Action.apply_placed {config : Config} {vm : Except CommandError Unit} {s s' : HostState}
    {action : Action} {report : Report} (placed : s.Placed)
    (h : action.apply config vm s = .ok (report, some s')) : s'.Placed := by
  cases action with
  | list => cases h
  | inspect address =>
    rw [apply] at h
    cases haccount : accountAt s address with
    | error e =>
      rw [haccount] at h
      cases h
    | ok account =>
      rw [haccount] at h
      cases h
  | create code sender gas =>
    rw [apply] at h
    cases vm with
    | error e => cases h
    | ok => exact executed_placed placed h
  | call address sender input isStatic gas =>
    rw [apply] at h
    cases hcode : codeAt s address with
    | error e =>
      rw [hcode] at h
      cases h
    | ok code =>
      rw [hcode] at h
      cases vm with
      | error e => cases h
      | ok => exact executed_placed placed h
  | remove address =>
    rw [apply] at h
    cases haccount : accountAt s address with
    | error e =>
      rw [haccount] at h
      cases h
    | ok account =>
      rw [haccount] at h
      cases h
      exact placed.erase address

/-! ## Commands on a file -/

/-- A line names a command that keeps its state in the file, or none. Whatever state the file keeps, the
line names the same command, the same interpreter is found for it, and no file is changed by that. -/
structure Surroundings.Serves (around : Surroundings (StateM Directory))
    (reads : List String → Except CommandError Invocation) (vm : Config → Except VmFailure Unit)
    {d : Directory} {file : Path} (home : Home d file) (line : List String) : Prop where
  setUp : ∀ kept d', home.Keeps kept d' →
    onFiles (setUp around line) d' = ((reads line).map Invocation.parts, d')
  defaults : ∀ i, reads line = .ok i → i.Defaults file
  vm : ∀ i, reads line = .ok i → ∀ kept d', home.Keeps kept d' →
    (around.vm i.config).run d' = (vm i.config, d')

variable {around : Surroundings (StateM Directory)}
  {reads : List String → Except CommandError Invocation} {vm : Config → Except VmFailure Unit}
  {lines : List (List String)} {d d' : Directory} {file : Path} {home : Home d file} {s : HostState}
  {kept : Option HostState}

/-- One command answers on the file as on the state in memory, and the file keeps what it keeps. -/
theorem perform_keeps (hfiles : around.files = Directory.system)
    (hload : (HostState.load Directory.system file).run d = (.ok s, d)) {i : Invocation}
    (hdefaults : i.Defaults file) (hvm : (around.vm i.config).run d' = (vm i.config, d'))
    (h : home.Keeps kept d') : ∃ d'',
    onFiles (i.perform around) d' = ((i.answer vm (kept.getD s)).map Prod.fst, d'') ∧
      home.Keeps (((i.answer vm (kept.getD s)).toOption.bind Prod.snd).or kept) d'' := by
  have hloaded := Home.load_of_keeps hload h
  have placed := Home.placed_of_keeps (Home.placed_of_load hload) h
  rw [Invocation.perform_on hfiles hdefaults]
  unfold Invocation.answer
  cases i.action with
  | error e => exact ⟨d', rfl, h⟩
  | ok action =>
    have hrun := runOn_on hfiles file action hloaded hvm
    simp only
    rw [hrun]
    exact concluded_keeps (fun report s' hresult => Action.apply_placed placed hresult) h

/-- One line answers on the file as on the state in memory, and the file keeps what it keeps. -/
theorem run_keeps (hfiles : around.files = Directory.system)
    (hload : (HostState.load Directory.system file).run d = (.ok s, d)) {line : List String}
    (serves : around.Serves reads vm home line) (h : home.Keeps kept d') : ∃ d'',
    onFiles (run around line) d' = ((answerLine reads vm line (kept.getD s)).map Prod.fst, d'') ∧
      home.Keeps (((answerLine reads vm line (kept.getD s)).toOption.bind Prod.snd).or kept) d'' := by
  rw [run_eq, onFiles_bind, serves.setUp kept d' h]
  unfold answerLine
  cases hreads : reads line with
  | error e => exact ⟨d', rfl, h⟩
  | ok i => exact perform_keeps hfiles hload (serves.defaults i hreads) (serves.vm i hreads kept d' h) h

theorem runAll_cons (around : Surroundings (StateM Directory)) (line : List String)
    (rest : List (List String)) (d : Directory) :
    (runAll around (line :: rest)).run d =
      ((onFiles (run around line) d).1 :: ((runAll around rest).run (onFiles (run around line) d).2).1,
        ((runAll around rest).run (onFiles (run around line) d).2).2) := by
  unfold runAll
  rw [List.mapM_cons]
  rfl

/-- Lines in a row answer on the file as on the state in memory, and the file keeps what the last of
them kept. -/
theorem runAll_keeps (hfiles : around.files = Directory.system)
    (hload : (HostState.load Directory.system file).run d = (.ok s, d))
    (serves : ∀ line ∈ lines, around.Serves reads vm home line) (h : home.Keeps kept d') : ∃ d'',
    (runAll around lines).run d' = ((inMemory reads vm (kept.getD s) lines).1, d'') ∧
      home.Keeps ((inMemory reads vm (kept.getD s) lines).2.or kept) d'' := by
  induction lines generalizing kept d' with
  | nil => exact ⟨d', rfl, h⟩
  | cons line rest ih =>
    obtain ⟨hline, hrest⟩ := List.forall_mem_cons.1 serves
    obtain ⟨between, hfirst, hkeeps⟩ := run_keeps hfiles hload hline h
    obtain ⟨d'', hlater, hlast⟩ := ih hrest hkeeps
    -- the rest starts from what this line kept, or else from what was kept before it
    rw [Option.getD_or] at hlater hlast
    rw [runAll_cons, hfirst, hlater, inMemory]
    refine ⟨d'', rfl, ?_⟩
    rw [Option.or_assoc]
    exact hlast

end ContractHost.CommandLine

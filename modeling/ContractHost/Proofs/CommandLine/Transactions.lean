import ContractHost.Proofs.CommandLine.InMemory

/-!
# Commands as transactions

A command that has a result replaces the file of the state as a whole, and a command that has none, or
only reports, leaves it as it was. Nothing is lost or added between one command and the next: in a row
they answer as on one state in memory, and in the end the file holds the snapshot of that state.

A result counts only if the state after it has a snapshot. A call can move a count on to a number of 4301
digits, which has no text; then nothing is saved, and the command fails.

* `commands_transactional`: commands in a row on one file.
* `call_without_snapshot`: a result that does not count.
-/

namespace ContractHost

open CommandLine

variable {around : Surroundings (StateM Directory)}

theorem CommandLine.ok_of_toOption {ε α : Type} {result : Except ε α} {a : α}
    (h : result.toOption = some a) : result = .ok a := by
  cases result with
  | error e => cases h
  | ok b => exact congrArg Except.ok (Option.some.inj h)

/-! ## Lines that serve -/

/-- With the built-in interpreter and no file for the log, all that counts is that the configuration has
a file of its own. -/
theorem CommandLine.Surroundings.serves_of_names [Room] {d : Directory} {file : Path} {home : Home d file}
    (hfiles : around.files = Directory.system)
    (hlog : around.settings.fileOutput.value.truthy = false) (hvm : around.vm = builtIn)
    {view : FileSystem Id} {line : List String} {i : Invocation}
    (hnames : around.names view line = .ok i) (hdefaults : i.Defaults file)
    (hshows : ∀ (given : Arguments) others, parse groupOptions false line = .ok (given, others) →
      ∀ kept d', home.Keeps kept d' → Shows view d' (configPath around.env given)) :
    around.Serves (around.names view) (fun _ => .ok ()) home line where
  setUp kept d' h := by
    have hreads := setUp_reads hfiles hlog fun given others hparse =>
      hshows given others hparse kept d' h
    rw [hreads, setUp_of_names hnames, hnames]
    rfl
  defaults other hother := by
    rw [hnames] at hother
    cases hother
    exact hdefaults
  vm other hother kept d' h := by
    rw [hvm]
    rfl

/-- Files, settings and variables as they usually are, with the built-in interpreter. -/
def CommandLine.Surroundings.usual : Surroundings (StateM Directory) where
  files := Directory.system
  settings := {}
  env := ∅
  vm := builtIn

/-- The file that usually keeps the state. -/
def CommandLine.usualFile : Path := .ofText "state.json"

/-- A directory with a file for the state, which has the snapshot of a state. -/
def Directory.keeping (s : HostState) : Directory :=
  Directory.put {} ["state.json"] (.file (s.toBytes.toOption.getD []))

theorem Directory.keeping_admits (s : HostState) :
    (Directory.keeping s).Admits usualFile ["state.json"] := by
  have hfile : usualFile = { parts := ["state.json"] } := by decide +kernel
  have hplace := placeOf_name (by decide : '\x00' ∉ "state.json".toList) (by decide) (by decide)
    (Directory.keeping s)
  rw [← hfile] at hplace
  refine ⟨hplace, ?_⟩
  rw [keeping, find?_put (List.cons_ne_nil _ _), if_pos rfl]
  nofun

/-- Where the state is kept. -/
def Directory.home (s : HostState) : Home (Directory.keeping s) usualFile :=
  .ofAdmits (Directory.keeping_admits s)

theorem Directory.load_keeping {s : HostState} (placed : s.Placed)
    (hwritable : Json.writable s.toValue = true) :
    (HostState.load Directory.system usualFile).run (Directory.keeping s) =
      (.ok s, Directory.keeping s) := by
  have hdumps : s.dumps = .ok (Json.write .indented s.toValue) := if_pos hwritable
  have hbytes : s.toBytes = .ok (s.toBytes.toOption.getD []) := by
    rw [HostState.toBytes_eq, hdumps]
    rfl
  have hlook : (Directory.keeping s).look usualFile =
      .ok (some (.file (s.toBytes.toOption.getD []))) := by
    rw [(keeping_admits s).look, keeping, find?_put (List.cons_ne_nil _ _), if_pos rfl]
  rw [HostState.load_on, hlook]
  exact congrArg (·, _) (HostState.ofBytes_toBytes placed hbytes)

theorem CommandLine.Surroundings.usual_serves [Room] {s : HostState} {line : List String} {i : Invocation}
    (hnames : Surroundings.usual.names nowhere line = .ok i)
    (hplain : parse groupOptions false line = .ok ([], line)) (hdefaults : i.Defaults usualFile) :
    Surroundings.usual.Serves (Surroundings.usual.names nowhere) (fun _ => .ok ())
      (Directory.home s) line := by
  have hpath : configPath Surroundings.usual.env [] = { parts := ["evmhost.toml"] } := by
    decide +kernel
  refine serves_of_names rfl rfl rfl hnames hdefaults fun given others hparse kept d' h => ?_
  rw [hplain] at hparse
  cases hparse
  have hnone : (Directory.keeping s).find? ["evmhost.toml"] = none := by
    rw [Directory.keeping, Directory.find?_put (List.cons_ne_nil _ _), if_neg (by decide)]
    rfl
  -- commands write to the file of the state only, so none of them makes a configuration
  have hfind : d'.find? ["evmhost.toml"] = none := by
    have hother : (Directory.home s).place ≠ ["evmhost.toml"] := by
      show ["state.json"] ≠ ["evmhost.toml"]
      decide
    rcases Home.find?_of_keeps h hother with hsame | hsame
    · exact hsame.trans hnone
    · exact hsame.trans hnone
  have hlook : d'.look (configPath Surroundings.usual.env []) = .ok none := by
    rw [hpath, Directory.look_name (by decide) (by decide) (by decide), hfind]
  constructor
  · rw [hlook]
    rfl
  · rw [hlook]
    nofun

/-! ## A file that keeps a writing contract -/

/-- A state with a contract that writes a slot, which was changed so often before. -/
def HostState.writing (times : Nat) : HostState :=
  (({} : HostState).deploy (.ofNat 1) [0x60, 5, 0x60, 0, 0x55]).modify (.ofNat 1) fun account =>
    { account with storage := account.storage.insert .zero { modifyTime := times } }

theorem HostState.writing_placed (times : Nat) : (HostState.writing times).Placed := by
  apply Placed.modify
  · apply Placed.modify .empty
    exact fun _ => rfl
  · exact fun _ => rfl

/-- A call of the contract at an address. -/
def callLine (address : String) : List String := ["call", "--address", address]

/-- A call of a contract, a call of none, and a list of the accounts. -/
def writingLines : List (List String) :=
  [callLine "0x0000000000000000000000000000000000000001",
   callLine "0x0000000000000000000000000000000000000002", ["list"]]

/-! ## Commands in a row -/

/-- Lines that name commands on the state, on a file whose state can be loaded or is still to be made,
answer what they answer on one state in memory. Afterwards the file holds the snapshot of that state and a
line end if a command changed it, and otherwise it is what it was. -/
theorem commands_transactional [Room] {reads : List String → Except CommandError Invocation}
    {vm : Config → Except VmFailure Unit} {lines : List (List String)} {d : Directory} {file : Path}
    {s : HostState} (hfiles : around.files = Directory.system) (home : Home d file)
    (hload : (HostState.load Directory.system file).run d = (.ok s, d))
    (serves : ∀ line ∈ lines, around.Serves reads vm home line) : ∃ d',
    (runAll around lines).run d = ((inMemory reads vm s lines).1, d') ∧
      match (inMemory reads vm s lines).2 with
      | none => d'.look file = d.look file
      | some s' => ∃ text, s'.dumps = .ok text ∧
          d'.look file = .ok (some (.file (Utf8.ofChars (text.toList ++ ['\n'])))) := by
  obtain ⟨d', hrun, hkeeps⟩ := runAll_keeps hfiles hload serves .start
  rw [Option.getD_none] at hrun hkeeps
  rw [Option.or_none] at hkeeps
  refine ⟨d', hrun, ?_⟩
  generalize (inMemory reads vm s lines).2 = kept at hkeeps
  cases kept with
  | none => exact Home.look_of_unsaved hkeeps
  | some s' => exact Home.look_of_saved hkeeps

section

attribute [local instance] Room.usual

theorem commands_transactional_writing : ∃ answers d', ∃ s : HostState, ∃ text : String,
    (runAll .usual writingLines).run (.keeping (.writing 0)) = (answers, d') ∧
      answers.map (·.toOption.map (·.success)) = [some true, none, some true] ∧
      s.getStorage (.ofNat 1) .zero = .ofNat 5 ∧ s.dumps = .ok text ∧
      d'.look usualFile = .ok (some (.file (Utf8.ofChars (text.toList ++ ['\n'])))) := by
  have hlines : (writingLines.all fun line => parse groupOptions false line = .ok ([], line) &&
      (Surroundings.usual.names nowhere line).toOption.any fun i =>
        Path.ofText i.config.stateFile.shown = usualFile && i.namesNoFile) = true := by
    decide +kernel
  have hserves : ∀ line ∈ writingLines, Surroundings.usual.Serves
      (Surroundings.usual.names nowhere) (fun _ => .ok ()) (Directory.home (.writing 0)) line := by
    intro line hline
    have hline := List.all_eq_true.1 hlines line hline
    rw [Bool.and_eq_true] at hline
    obtain ⟨hplain, hnames⟩ := hline
    obtain ⟨i, hnames, hfile⟩ := (Option.any_eq_true ..).1 hnames
    rw [Bool.and_eq_true] at hfile
    exact Surroundings.usual_serves (ok_of_toOption hnames) (of_decide_eq_true hplain)
      ⟨of_decide_eq_true hfile.1, hfile.2⟩
  have hload := Directory.load_keeping (HostState.writing_placed 0) (by decide +kernel)
  obtain ⟨d', hrun, hfile⟩ := commands_transactional rfl (Directory.home (.writing 0)) hload hserves
  have hanswers : ((inMemory (Surroundings.usual.names nowhere) (fun _ => .ok ()) (.writing 0)
      writingLines).1.map (·.toOption.map (·.success)), ((inMemory (Surroundings.usual.names nowhere)
        (fun _ => .ok ()) (.writing 0) writingLines).2.map (·.getStorage (.ofNat 1) .zero))) =
      ([some true, none, some true], some (.ofNat 5)) := by
    decide +kernel
  obtain ⟨hsuccesses, hslot⟩ := Prod.mk.inj hanswers
  obtain ⟨s, hkept, hword⟩ := Option.map_eq_some_iff.1 hslot
  rw [hkept] at hfile
  obtain ⟨text, hdumps, hlook⟩ := hfile
  exact ⟨_, d', s, text, hrun, hsuccesses, hword, hdumps, hlook⟩

end

section

attribute [local instance] Room.usual

/-- A call may have a result whose state has no snapshot. Then it is no answer, and is not kept. -/
theorem call_without_snapshot :
    let s := HostState.writing (tenTo 4300 - 1)
    let line := callLine "0x0000000000000000000000000000000000000001"
    (HostState.load Directory.system usualFile).run (.keeping s) = (.ok s, .keeping s) ∧
      (∃ i action report s', Surroundings.usual.names nowhere line = .ok i ∧ i.Defaults usualFile ∧
        i.action = .ok action ∧ action.apply i.config (.ok ()) s = .ok (report, some s') ∧
        report.success = true ∧ s'.dumps = .error .badValue) ∧
      onFiles (CommandLine.run .usual line) (.keeping s) = (.error (.ofFault .badValue), .keeping s) := by
  intro s line
  have hplain : parse groupOptions false line = .ok ([], line) := by decide +kernel
  have hload : (HostState.load Directory.system usualFile).run (.keeping s) = (.ok s, .keeping s) :=
    Directory.load_keeping (HostState.writing_placed _) (by decide +kernel)
  have hresult : ((Surroundings.usual.names nowhere line).toOption.any fun i =>
      Path.ofText i.config.stateFile.shown = usualFile && i.namesNoFile && i.action.toOption.any fun action =>
        (action.apply i.config (.ok ()) s).toOption.any fun result =>
          result.1.success && result.2.any fun s' => !Json.writable s'.toValue) = true := by
    decide +kernel
  simp only [Option.any_eq_true, Bool.and_eq_true, Bool.not_eq_true'] at hresult
  obtain ⟨i, hnames, ⟨hfile, hnamesNoFile⟩, action, haction, ⟨report, _⟩, happly, hsuccess, s', rfl,
    hunwritable⟩ := hresult
  replace hnames := ok_of_toOption hnames
  replace haction := ok_of_toOption haction
  replace happly := ok_of_toOption happly
  have hdefaults : i.Defaults usualFile := ⟨of_decide_eq_true hfile, hnamesNoFile⟩
  have hdumps : s'.dumps = .error .badValue := by
    rw [HostState.dumps, hunwritable]
    rfl
  refine ⟨hload, ⟨i, action, report, s', hnames, hdefaults, haction, happly, hsuccess, hdumps⟩, ?_⟩
  have hline : answerLine (Surroundings.usual.names nowhere) (fun _ => .ok ()) line s =
      .error (.ofFault .badValue) := by
    rw [answerLine_of_apply hnames haction rfl happly, withSnapshot, hdumps]
  obtain ⟨d', hrun, hkeeps⟩ := run_keeps rfl hload
    (Surroundings.usual_serves hnames hplain hdefaults) .start
  rw [Option.getD_none, hline] at hrun hkeeps
  cases hkeeps with
  | start => exact hrun
  | ready => exact hrun

end

end ContractHost

import ContractHost.Log.Layout
import ContractHost.Settings.Basic

/-!
# Setting up the log

A log has a level and handlers, which write to the terminal or to a file. It is set up once, or again if
that is asked for, from a request and the settings: what the request leaves open the settings decide.
A fault on the way leaves what was done before it.

* `Log.configure`: sets the log up.
* `Log.take`: hands a record to the handlers.
-/

namespace ContractHost

/-- Where a handler writes. -/
inductive Log.Target
  /-- A terminal, with colours. -/
  | coloured
  /-- A terminal. -/
  | plain
  /-- A file. -/
  | file (path : Path)
  deriving DecidableEq, Repr

/-- A handler of records. -/
structure Log.Handler where
  target : Log.Target
  /-- The level from which on the handler takes records. -/
  level : Nat
  layout : Log.Layout

/-- A log. -/
structure Log where
  /-- Whether the log was set up. -/
  configured : Bool := false
  /-- The level from which on the log takes records. -/
  level : Nat := Log.warning
  handlers : List Log.Handler := []

namespace Log

/-- What is asked of a log. -/
structure Request where
  /-- The level. -/
  level : Option Text := none
  /-- The file to write to. -/
  file : Option Path := none
  /-- Whether to write to the terminal. -/
  toTerminal : Bool := true
  /-- Whether to write to a file. -/
  toFile : Option Bool := none
  /-- Whether a log that was set up is set up again. -/
  again : Bool := false

/-- The file that logs are written to. -/
def usualFile : Path := .ofText "logs/evmhost.log"

/-- The mark of the time zone at the end of date patterns. -/
def zoneMark : String := " UTC"

/-- The level that is asked for. -/
def Request.levelNumber (request : Request) (settings : Settings) : Except Fault Nat :=
  levelOfText ((request.level.filter (· ≠ .plain "")).getD settings.logLevel.value.plain)

/-- A setting's template, or its default if it has none that can be used. -/
def settingTemplate [Room] (s : Setting) : Except Fault String :=
  if s.value.truthy then checkedTemplate s.default.plain s.value.plain else .ok s.default.plain

/-- A setting's date pattern, or its default if it has none that can be used. -/
def settingPattern (s : Setting) : String :=
  if s.value.truthy then checkedPattern s.default.plain s.value.plain else s.default.plain

/-- The layout that the settings ask for. -/
def settingLayout [Room] (settings : Settings) : Except Fault Layout := do
  let template ← settingTemplate settings.logFormat
  Layout.make template (some (settingPattern settings.logDateFormat ++ zoneMark))

/-- The handlers for the terminal that are asked for. -/
def Request.terminal (request : Request) (settings : Settings) : List Target :=
  if request.toTerminal then
    [if settings.consoleHighlighting.value.truthy then .coloured else .plain]
  else []

/-- The file that is asked for, if one is. -/
def Request.file? (request : Request) (settings : Settings) : Option Path :=
  if request.toFile.getD settings.fileOutput.value.truthy then
    some (request.file.getD usualFile)
  else none

variable [Room] {m : Type → Type} [Monad m]

/-- Makes a file and the directories above it, if they are missing. -/
def openFile (files : FileSystem m) (path : Path) : m (Except Fault Unit) := do
  match ← files.makeDirectories path.parent with
  | .error fault => return .error fault
  | .ok () => files.append path []

/-- Sets a log up, and says which fault there was. -/
def configure (files : FileSystem m) (settings : Settings) (request : Request) (log : Log) :
    m (Except Fault Unit × Log) := do
  if log.configured && !request.again then return (.ok (), log)
  match request.levelNumber settings with
  | .error fault => return (.error fault, log)
  | .ok level =>
    let log := { log with level, handlers := [] }
    match settingLayout settings with
    | .error fault => return (.error fault, log)
    | .ok layout =>
      let log := { log with handlers := (request.terminal settings).map (⟨·, level, layout⟩) }
      match request.file? settings with
      | none => return (.ok (), { log with configured := true })
      | some path =>
        match ← openFile files path with
        | .error fault => return (.error fault, log)
        | .ok () =>
          let handlers := log.handlers ++ [⟨.file path, level, layout⟩]
          return (.ok (), { log with configured := true, handlers })

/-- The bytes of a record's line in a file, if it has a line that can be written. -/
def Handler.bytes? (handler : Handler) (record : Record) : Option Bytes :=
  match handler.layout.line record with
  | .ok line => Utf8.encode? (line ++ "\n")
  | .error _ => none

/-- Writes a record with a handler. A record that cannot be written is left out. -/
def Handler.take (files : FileSystem m) (record : Record) (handler : Handler) : m Unit := do
  match handler.target, handler.bytes? record with
  | .file path, some bytes =>
    if handler.level ≤ record.level then
      let _ ← files.append path bytes
  | _, _ => return ()

/-- Hands a record to the handlers of a log. What they write to a terminal is not kept. -/
def take (files : FileSystem m) (log : Log) (record : Record) : m Unit := do
  if log.level ≤ record.level then
    log.handlers.forM (Handler.take files record)

end Log

end ContractHost

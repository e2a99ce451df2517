import ContractHost.Files.System
import ContractHost.State.Snapshot
import ContractHost.Text.Utf8

/-!
# Saved states

A state is kept in a file as the text of its snapshot and a line end. A missing file stands for the
empty state.
-/

namespace ContractHost.HostState

variable {m : Type → Type} [Monad m]

/-- The state that the bytes of a file spell. -/
def ofBytes (bytes : Bytes) : Except SnapshotFailure HostState :=
  match Utf8.decode? bytes with
  | some chars => loads (.ofChars chars)
  | none => .error (.escaped .notUtf8)

/-- The bytes of a file that keeps a state. -/
def toBytes (s : HostState) : Except Fault Bytes := do
  return Utf8.ofChars ((← s.dumps).toList ++ ['\n'])

/-- The state that a file keeps. -/
def load (files : FileSystem m) (path : Path) : m (Except SnapshotFailure HostState) := do
  match ← files.isFile? path with
  | .error fault => return .error (.escaped fault)
  | .ok none => return .ok {}
  | .ok (some _) =>
    match ← files.read path with
    | .error fault => return .error (.error (.unreadable path.text fault))
    | .ok bytes => return ofBytes bytes

/-- The failure to write a file. -/
def saveFailure (path : Path) (fault : Fault) : SnapshotFailure :=
  if fault = .badValue then .escaped fault else .error (.unwritable path.text fault)

/-- Keeps a state in a file, in a directory that is made if it is missing. -/
def save (files : FileSystem m) (s : HostState) (path : Path) : m (Except SnapshotFailure Unit) := do
  match ← files.makeDirectories path.parent with
  | .error fault => return .error (saveFailure path fault)
  | .ok () =>
    match s.toBytes with
    | .error fault => return .error (saveFailure path fault)
    | .ok bytes =>
      match ← files.write path bytes with
      | .error fault => return .error (saveFailure path fault)
      | .ok () => return .ok ()

end ContractHost.HostState

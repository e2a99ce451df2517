import ContractHost.Files.Directory

/-!
# File systems

What a program asks of the files around it, whoever holds them. `Directory.system` is the file system
of a directory that is a value.
-/

namespace ContractHost

/-- What a program asks of the files around it. -/
structure FileSystem (m : Type → Type) where
  /-- Whether something stands at a path, and then whether it is a file. -/
  isFile? : Path → m (Except Fault (Option Bool))
  /-- The bytes of a file. -/
  read : Path → m (Except Fault Bytes)
  /-- Puts bytes into a file. -/
  write : Path → Bytes → m (Except Fault Unit)
  /-- Puts bytes at the end of a file. -/
  append : Path → Bytes → m (Except Fault Unit)
  /-- Makes a directory and those above it. -/
  makeDirectories : Path → m (Except Fault Unit)

/-- A change of a directory that may fail. -/
def Directory.changing (change : Directory → Except Fault Directory) :
    StateM Directory (Except Fault Unit) := fun d =>
  match change d with
  | .ok d => (.ok (), d)
  | .error fault => (.error fault, d)

/-- The file system of a directory. -/
def Directory.system : FileSystem (StateM Directory) where
  isFile? path := do
    return (← get).look path |>.map (·.map fun entry => entry matches .file _)
  read path := do return (← get).read path
  write path bytes := changing (·.write path bytes)
  append path bytes := changing (·.append path bytes)
  makeDirectories path := fun d => d.makeDirectories path

end ContractHost

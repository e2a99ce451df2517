import ContractHost.Document.Optional
import ContractHost.Files.Directory
import ContractHost.Text.Utf8

/-!
# Directories in documents

A directory as a table from paths to texts. A file that is no text is given by its bytes, and null
stands for a directory; directories above a path are there without being named. Where files are shown,
bytes that are no text are given by number.
-/

namespace ContractHost

/-- The bytes of a file that a value describes. -/
def fileBytes : Value → Bytes
  | .text t => Utf8.ofChars t.chars
  | v => (v.bytesOf "hex").toOption.getD []

namespace Directory

/-- The directory with the directories above a place. -/
def withParents (d : Directory) (place : List String) : Directory :=
  (List.range (place.length - 1)).foldl (fun d n => d.put (place.take (n + 1)) .directory) d

/-- The directory with what a value describes at a path. -/
def withEntry (d : Directory) (entry : Text × Value) : Directory :=
  let place := (Path.ofText entry.1.shown).parts
  match entry.2 with
  | .null => (d.withParents place).put place .directory
  | v => (d.withParents place).put place (.file (fileBytes v))

/-- The directory that a table describes. -/
def ofTable (entries : List (Text × Value)) : Directory := entries.foldl withEntry {}

/-- The files of a directory with their texts. -/
def texts (d : Directory) : List (Text × Value) :=
  d.entries.entries.filterMap fun (place, entry) =>
    match entry with
    | .file bytes =>
      some (String.intercalate "/" place, .text (String.ofList (Utf8.visible bytes)))
    | .directory => none

end Directory

end ContractHost

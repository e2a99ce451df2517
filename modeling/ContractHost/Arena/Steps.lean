import ContractHost.Arena.Basic

/-!
# Runs of arena operations

A step is one operation of an arena of labelled objects. A loan encloses further steps, which run
while the object is in use. Each step is answered, also when it fails, and the next one runs on what
it left.
-/

namespace ContractHost.Arena

/-- How a step names an object. -/
inductive Target
  /-- By the handle that its label was given last. -/
  | label (name : String)
  /-- By a handle. -/
  | handle (handle : Handle)

/-- One operation. -/
inductive Step
  /-- Takes in a new object with a label. -/
  | insert (label : String) (kind : Kind)
  /-- Uses an object while other steps run. -/
  | borrow (target : Target) (kind : Option Kind) (inside : List Step)
  /-- Takes an object out. -/
  | reclaim (target : Target) (kind : Option Kind)

instance : Inhabited Step := ⟨.reclaim (.handle 0) none⟩

/-- The answer to a step, with the number of objects inside afterwards. -/
inductive Report
  /-- An object was taken in. -/
  | inserted (handle : Handle) (live : Nat)
  /-- A loan ended well. -/
  | borrowed (label : String) (inside : List Report) (live : Nat)
  /-- An object was taken out. -/
  | reclaimed (label : String) (live : Nat)
  /-- The step failed. -/
  | failed (error : ArenaError) (live : Nat)

/-- An arena and the handles of its labels. -/
structure Desk where
  arena : Arena String
  handles : List (String × Handle) := []

/-- The handle that a target means. A label that was never given means the null handle. -/
def Desk.handle (desk : Desk) : Target → Handle
  | .label name => (desk.handles.lookup name).getD 0
  | .handle handle => handle

mutual

/-- Runs one step. -/
def Step.run : Step → Desk → Report × Desk
  | .insert label kind, desk =>
    match desk.arena.insert kind label with
    | .error e => (.failed e desk.arena.live, desk)
    | .ok (handle, arena) =>
      (.inserted handle arena.live, { arena, handles := (label, handle) :: desk.handles })
  | .borrow target kind inside, desk =>
    match desk.arena.resolve (desk.handle target) (kind.getD desk.arena.base) with
    | .error e => (.failed e desk.arena.live, desk)
    | .ok loan =>
      let (reports, desk) := runAll inside desk
      match desk.arena.endLoan loan with
      | .error e => (.failed e desk.arena.live, desk)
      | .ok () => (.borrowed loan.occupant.object reports desk.arena.live, desk)
  | .reclaim target kind, desk =>
    match desk.arena.reclaim (desk.handle target) (kind.getD desk.arena.base) with
    | .error e => (.failed e desk.arena.live, desk)
    | .ok (label, arena) => (.reclaimed label arena.live, { desk with arena })

/-- Runs steps one after another. -/
def runAll : List Step → Desk → List Report × Desk
  | [], desk => ([], desk)
  | step :: rest, desk =>
    let (report, desk) := step.run desk
    let (reports, desk) := runAll rest desk
    (report :: reports, desk)

end

end ContractHost.Arena

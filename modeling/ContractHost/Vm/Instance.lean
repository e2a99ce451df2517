import ContractHost.Fault

/-!
# Instances of interpreters

An interpreter describes itself by the version of the boundary that it was built for, a name and a
version of its own, either of which may be missing. Only instances for the supported version of the
boundary are accepted. An instance is destroyed once; it learns of it if it has a function for that.

* `Vm.ofDescription?`: an instance, unless there is none or its boundary is another.
* `Vm.destroy_destroy`: destroying again changes nothing.
-/

namespace ContractHost

/-- The version of the boundary that is supported. -/
def supportedBoundary : Int := 7

/-- How an interpreter describes itself. -/
structure VmDescription where
  boundary : Int := supportedBoundary
  name : Option String := some "tiny"
  version : Option String := some "0.1.0"
  /-- Whether the interpreter has a function that is called when it is destroyed. -/
  hearsOfEnd : Bool := true
  deriving DecidableEq, Repr

/-- Why there is no instance of an interpreter. -/
inductive VmError
  /-- No file of a library has the name. -/
  | notFound (name : String)
  /-- The path of a library gives no name for its function. -/
  | noSymbol (path : String)
  /-- A library does not open, or does not have the function. -/
  | notLoaded (path : String) (cause : Fault)
  /-- The function of the library made no instance. -/
  | noInstance
  /-- The instance was built for another version of the boundary. -/
  | boundary (version : Int)
  deriving DecidableEq, Repr

/-- The text of an error, with a wording for faults that have none of their own. -/
def VmError.message (wording : Fault → String) : VmError → Text
  | .notFound name => s!"Can not find {name}"
  | .noSymbol path => s!"Can not derive create function from {path}"
  | .notLoaded path cause => s!"Failed to load {path}: " ++ cause.describe wording
  | .noInstance => "Interpreter create function returned NULL"
  | .boundary version =>
    s!"Interpreter ABI version {version} is not supported (expected {supportedBoundary})"

/-- An instance of an interpreter. -/
structure Vm where
  /-- What the instance says about itself, until it is destroyed. -/
  description : Option VmDescription
  /-- Whether the interpreter was told that it is destroyed. -/
  toldOfEnd : Bool := false
  deriving DecidableEq, Repr

namespace Vm

/-- The instance that was made, if it can be used. -/
def ofDescription? : Option VmDescription → Except VmError Vm
  | none => .error .noInstance
  | some d => if d.boundary = supportedBoundary then .ok { description := some d }
              else .error (.boundary d.boundary)

/-- The name of an interpreter, empty if it has none. -/
def name (vm : Vm) : String := (vm.description.bind (·.name)).getD ""

/-- The version of an interpreter, empty if it has none. -/
def version (vm : Vm) : String := (vm.description.bind (·.version)).getD ""

/-- Whether an instance is gone. -/
def isGone (vm : Vm) : Bool := vm.description.isNone

/-- The instance after it is destroyed. -/
def destroy (vm : Vm) : Vm where
  description := none
  toldOfEnd := vm.toldOfEnd || (vm.description.map (·.hearsOfEnd)).getD false

theorem destroy_destroy (vm : Vm) : vm.destroy.destroy = vm.destroy := by
  simp [destroy]

end Vm

end ContractHost

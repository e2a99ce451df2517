import ContractHost.Interpreter.Instruction
import ContractHost.Interpreter.Memory
import ContractHost.Interpreter.Script

/-!
# The interpreter

A machine has a stack, a memory and gas. Each instruction costs one unit of gas before it runs, asks
its host at most one question, and then goes on, halts with a status or crashes. A crash is a fault of
the machine itself: a number that no native argument can hold, or a buffer that cannot be.

* `Instruction.move`: what one instruction does.
* `exec`: the script of a list of instructions.
* `interpret`: the script of code run for a message.
-/

namespace ContractHost.Interpreter

variable [Room]

/-- The number of words. -/
def wordCount : Int := twoTo 256

/-- A number as a word, counted round. -/
def wordOf (n : Int) : Bytes32 := .ofNat (n % wordCount).toNat

/-- The last twenty bytes of a number's word. -/
def addressOf (n : Int) : Address := .ofNat (n % wordCount).toNat

/-- What stays the same while code runs. -/
structure Frame where
  message : Message
  code : Bytes

/-- What changes while code runs. The top of the stack is in front. -/
structure Machine where
  stack : List Int := []
  memory : Memory := []
  gas : Int

/-- Why no further instruction runs. -/
inductive Stop
  /-- The code ended itself or was ended by a rule. -/
  | halt (status : StatusCode) (output : Bytes)
  /-- The machine failed. -/
  | crash (fault : Fault)

/-- What an instruction does next. -/
inductive Move
  /-- Goes on. -/
  | go (m : Machine)
  /-- Asks a question and goes on with the answer. -/
  | ask (q : Query) (resume : q.Answer → Except Stop Machine)

/-- How an execution ended. -/
inductive Ending
  /-- With a status. -/
  | halted (status : StatusCode) (gasLeft : Int) (output : Bytes)
  /-- With a fault of the machine. -/
  | crashed (fault : Fault)

/-- The ending of code that stops with some gas: only success and revert leave any. -/
def Stop.ending (gas : Int) : Stop → Ending
  | .halt status output =>
    if status = .success ∨ status = .revert then .halted status (max gas 0) output
    else .halted status 0 output
  | .crash fault => .crashed fault

/-- A step whose fault makes the machine crash. -/
def crashing {α : Type} (step : Except Fault α) : Except Stop α := step.mapError .crash

/-- The stop of an instruction that finds too few items. -/
def underflow : Stop := .halt .stackUnderflow []

/-- The stop of a change that a static message forbids. -/
def forbidden : Stop := .halt .staticModeViolation []

namespace Machine

/-- The machine with a new top of the stack. -/
def push (m : Machine) (item : Int) (rest : List Int) : Machine :=
  { m with stack := item :: rest }

/-- The machine with a number of bytes as the new top. -/
def pushBytes (m : Machine) (bytes : Bytes) (rest : List Int) : Machine :=
  m.push (Bytes.toNat bytes) rest

/-- Bytes put into memory from a source that may end too early. -/
def copyIn (m : Machine) (rest : List Int) (dest : Int) (source : Bytes) (offset size : Int) :
    Except Stop Machine := do
  let bytes ← crashing (padTo size (slice source offset (offset + size)))
  let memory ← crashing (m.memory.write dest bytes)
  return { m with stack := rest, memory }

end Machine

/-- The message of a nested creation. -/
def creation (frame : Frame) (gas value : Int) (input : Bytes) (salt : Option Int) :
    Except Fault RawMessage := do
  let value ← FixedBytes.ofInt value
  Message.toRaw {
    kind := if salt.isSome then .create2 else .create
    depth := frame.message.depth + 1, gas, sender := frame.message.destination, input, value
    salt := (salt.map wordOf).getD .zero }

/-- The message of a nested call. -/
def nestedCall (frame : Frame) (gas target value : Int) (input : Bytes) :
    Except Fault RawMessage := do
  let value ← FixedBytes.ofInt value
  Message.toRaw {
    kind := .call, flags := frame.message.flags, depth := frame.message.depth + 1, gas
    destination := addressOf target, sender := frame.message.destination, input, value }

/-- What a creation does once it is answered. -/
def afterCreation (m : Machine) (rest : List Int) (raw : RawOutcome) : Except Stop Machine :=
  .ok (if raw.status = .success then m.pushBytes raw.createAddress.bytes rest else m.push 0 rest)

/-- What a call does once it is answered: its output goes to memory, cut or filled to a size. -/
def afterCall (m : Machine) (rest : List Int) (dest size : Int) (raw : RawOutcome) :
    Except Stop Machine := do
  let bytes ← crashing (padTo size (slice raw.output 0 size))
  let memory ← crashing (m.memory.write dest bytes)
  return { m with stack := (if raw.status = .success then 1 else 0) :: rest, memory }

/-- What an instruction does, its gas already paid. -/
def Instruction.move (frame : Frame) (m : Machine) (i : Instruction) : Except Stop Move :=
  let here := frame.message.destination
  match i, m.stack with
  | .stop, _ => .error (.halt .success [])
  | .add, a :: b :: rest => .ok (.go (m.push ((a + b) % wordCount) rest))
  | .address, stack => .ok (.go (m.pushBytes here.bytes stack))
  | .balance, a :: rest =>
    .ok (.ask (.getBalance (addressOf a)) fun balance => .ok (m.pushBytes balance.bytes rest))
  | .caller, stack => .ok (.go (m.pushBytes frame.message.sender.bytes stack))
  | .callDataLoad, offset :: rest =>
    let chunk := slice frame.message.input offset (offset + 32)
    .ok (.go (m.pushBytes (Bytes.padRight 32 chunk) rest))
  | .callDataSize, stack => .ok (.go (m.push frame.message.input.length stack))
  | .callDataCopy, dest :: offset :: size :: rest => do
    return .go (← m.copyIn rest dest frame.message.input offset size)
  | .codeCopy, dest :: offset :: size :: rest => do
    return .go (← m.copyIn rest dest frame.code offset size)
  | .extCodeSize, a :: rest =>
    .ok (.ask (.getCodeSize (addressOf a)) fun size => .ok (m.push size rest))
  | .extCodeCopy, a :: dest :: offset :: size :: rest => do
    let _ ← crashing (zeroBytes (max size 1))
    let offset ← crashing (fitting (uint64? offset))
    let limit ← crashing (fitting (uint64? size))
    return .ask (.copyCode (addressOf a) offset limit) fun bytes => do
      let bytes ← crashing (padTo size bytes)
      let memory ← crashing (m.memory.write dest bytes)
      return { m with stack := rest, memory }
  | .extCodeHash, a :: rest =>
    .ok (.ask (.getCodeHash (addressOf a)) fun hash => .ok (m.pushBytes hash.bytes rest))
  | .blockHash, n :: rest => do
    let n ← crashing (fitting (int64? n))
    return .ask (.getBlockHash n) fun hash => .ok (m.pushBytes hash.bytes rest)
  | .number, stack =>
    .ok (.ask .txContext fun tx => .ok (m.push tx.blockNumber.toInt stack))
  | .chainId, stack =>
    .ok (.ask .txContext fun tx => .ok (m.pushBytes tx.chainId.bytes stack))
  | .pop, _ :: rest => .ok (.go { m with stack := rest })
  | .load, offset :: rest => do
    let (bytes, memory) ← crashing (m.memory.read offset 32)
    return .go { m with stack := Bytes.toNat bytes :: rest, memory }
  | .store, offset :: value :: rest => do
    let _ ← crashing (if value < 0 ∨ wordCount ≤ value then .error .outOfRange else .ok ())
    let memory ← crashing (m.memory.write offset (wordOf value).bytes)
    return .go { m with stack := rest, memory }
  | .storageLoad, key :: rest =>
    .ok (.ask (.getStorage here (wordOf key)) fun word => .ok (m.pushBytes word.bytes rest))
  | .storageStore, stack =>
    if frame.message.isStatic then .error forbidden
    else match stack with
      | key :: value :: rest =>
        .ok (.ask (.setStorage here (wordOf key) (wordOf value)) fun _ =>
          .ok { m with stack := rest })
      | _ => .error underflow
  | .push value, stack => .ok (.go (m.push value stack))
  | .dup depth, stack =>
    match stack[depth - 1]? with
    | some item => .ok (.go (m.push item stack))
    | none => .error underflow
  | .swap, a :: b :: rest => .ok (.go { m with stack := b :: a :: rest })
  | .log count, stack =>
    if frame.message.isStatic then .error forbidden
    else match stack with
      | offset :: size :: rest =>
        if rest.length < count then .error underflow
        else do
          let (data, memory) ← crashing (m.memory.read offset size)
          return .ask (.emitLog here data ((rest.take count).map wordOf)) fun () =>
            .ok { m with stack := rest.drop count, memory }
      | _ => .error underflow
  | .create false, value :: offset :: size :: rest => do
    let (input, memory) ← crashing (m.memory.read offset size)
    let message ← crashing (creation frame m.gas value input none)
    return .ask (.call message) (afterCreation { m with memory } rest)
  | .create true, value :: offset :: size :: salt :: rest => do
    let (input, memory) ← crashing (m.memory.read offset size)
    let message ← crashing (creation frame m.gas value input (some salt))
    return .ask (.call message) (afterCreation { m with memory } rest)
  | .call, gas :: target :: value :: offset :: size :: dest :: destSize :: rest => do
    let (input, memory) ← crashing (m.memory.read offset size)
    let message ← crashing (nestedCall frame (min gas m.gas) target value input)
    return .ask (.call message) (afterCall { m with memory } rest dest destSize)
  | .ret, offset :: size :: _ => do
    let (output, _) ← crashing (m.memory.read offset size)
    .error (.halt .success output)
  | .revert, offset :: size :: _ => do
    let (output, _) ← crashing (m.memory.read offset size)
    .error (.halt .revert output)
  | .selfdestruct, stack =>
    if frame.message.isStatic then .error forbidden
    else match stack with
      | a :: _ =>
        .ok (.ask (.selfdestruct here (addressOf a)) fun () => .error (.halt .success []))
      | [] => .error underflow
  | .undefined, _ => .error (.halt .undefinedInstruction [])
  | _, _ => .error underflow

/-- The script of instructions from a machine on. -/
def exec (frame : Frame) : List (Nat × Instruction) → Machine → Script Ending
  | [], m => .done (.halted .success m.gas [])
  | (_, i) :: rest, m =>
    let paid := { m with gas := m.gas - 1 }
    if paid.gas < 0 then .done (Stop.ending paid.gas (.halt .outOfGas []))
    else
      match i.move frame paid with
      | .error stop => .done (stop.ending paid.gas)
      | .ok (.go m) => exec frame rest m
      | .ok (.ask q resume) =>
        .ask q fun answer =>
          match resume answer with
          | .error stop => .done (stop.ending paid.gas)
          | .ok m => exec frame rest m

/-- The script of code run for a message. -/
def interpret (message : Message) (code : Bytes) : Script Ending :=
  exec { message, code } (decode code) { gas := message.gas }

end ContractHost.Interpreter

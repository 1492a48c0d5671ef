import Sierra.Chain
import Sierra.Machine.Run

/-!
# The host

The functions that generated code asks of its host. The host has a chain, if one was
given, and keeps what the program prints.
-/

namespace Sierra

structure Host where
  chain : Option Chain := none
  printed : String := ""
  keeps : Bool := true

namespace Host

open Machine (World Image HostFn)

abbrev Action := EStateM Failure (World Host)

def onHeap {α : Type} (step : Value.Passing α) : Action α := fun w =>
  match step w.heap with
  | .ok a h => .ok a { w with heap := h }
  | .error e h => .error e { w with heap := h }

def printedLine (f : Felt) : String :=
  "[DEBUG]\t" ++ f.hex ++ (match f.shortString? with
    | some text => " ('" ++ text ++ "')"
    | none => "") ++ "\n"

def curveBeta : Felt :=
  Felt.ofNat 0x6f21413efbe40de150e596d72f7a8c5609ad26c15c915c1f4cdfcb99cee9e89

def curveSquare (x : Felt) : Felt := (((x.mul x).mul x).add x).add curveBeta

def sqrtBetween (n : Nat) : (rounds : Nat) → (low high : Nat) → Nat
  | 0, low, _ => low
  | rounds + 1, low, high =>
    if high ≤ low + 1 then low
    else
      let mid := (low + high) / 2
      if mid * mid ≤ n then sqrtBetween n rounds mid high else sqrtBetween n rounds low mid

def wordSqrt (n : Nat) : Nat := sqrtBetween n 130 0 (pow2 128)

def onChain {α : Type} (chain : Chain) (gas : Nat) (call : Chain.Call α) :
    Action (Except Refusal α × Nat) := fun w =>
  let keep (c : Chain) : World Host := { w with host := { w.host with chain := some c } }
  match call ⟨chain, gas⟩ with
  | .ok a f => .ok (.ok a, f.gas) (keep f.chain)
  | .error refusal f => .ok (.error refusal, f.gas) (keep f.chain)

def arg (args : List Image) (i : Nat) : Action Image :=
  match args[i]? with
  | some image => pure image
  | none => throw (.crash none)

def feltArg (args : List Image) (i : Nat) : Action Felt := do return Felt.ofBytes (← arg args i)

def wideArg (args : List Image) (i : Nat) : Action Int := do
  match Value.parseWide (← arg args i) with
  | .ok (low, high) => return low + pow2 128 * high
  | .error e => throw e

def pointArg (args : List Image) (i : Nat) : Action Point := do
  match Value.parsePoint (← arg args i) with
  | .ok p => return p
  | .error e => throw e

/-- Arguments are read, then the chain is called, then the answer is written. -/
def serve (chain : Chain) (gas : Nat) (args : List Image) (call : Syscall) :
    Action (Except Refusal (List Image) × Nat) := do
  let ask {α : Type} (step : Chain.Call α) (answer : α → Action (List Image)) :
      Action (Except Refusal (List Image) × Nat) := do
    match ← onChain chain gas step with
    | (.ok a, left) => return (.ok (← answer a), left)
    | (.error refusal, left) => return (.error refusal, left)
  match call with
  | .storageRead =>
    let domain := (← arg args 0).word64 % pow2 32
    let address ← feltArg args 1
    ask (Chain.storageRead domain address) fun v => return [v.toBytes]
  | .storageWrite =>
    let domain := (← arg args 0).word64 % pow2 32
    let address ← feltArg args 1
    let value ← feltArg args 2
    ask (Chain.storageWrite domain address value) fun _ => return []
  | .emitEvent =>
    let keys ← onHeap (Value.readFelts (← arg args 0))
    let data ← onHeap (Value.readFelts (← arg args 1))
    ask (Chain.emitEvent keys data) fun _ => return []
  | .getBlockHash =>
    let number := (← arg args 0).word64
    ask (Chain.getBlockHash number) fun v => return [v.toBytes]
  | .getExecutionInfo =>
    ask Chain.getExecutionInfo fun info => return [Image.ofAddress (← onHeap info.write)]
  | .callContract =>
    let data ← onHeap (Value.readFelts (← arg args 2))
    let address ← feltArg args 0
    let selector ← feltArg args 1
    ask (Chain.callContract address selector data) fun fs => return [← onHeap (Value.writeFelts fs)]
  | .sendMessage =>
    let payload ← onHeap (Value.readFelts (← arg args 1))
    let recipient ← feltArg args 0
    ask (Chain.sendMessage recipient payload) fun _ => return []
  | .keccak =>
    let words ← onHeap (Value.readWords (← arg args 0))
    ask (Chain.keccak words) fun (low, high) => return [Bytes.ofNat 16 low ++ Bytes.ofNat 16 high]
  | .secpNew curve =>
    let x ← wideArg args 0
    let y ← wideArg args 1
    ask (Chain.secpNew curve (x, y)) fun
      | none => return [Image.ofBool false, Image.zero secpPointType]
      | some p => return [Image.ofBool true, Value.pointBytes p]
  | .secpAdd curve =>
    let p ← pointArg args 0
    let q ← pointArg args 1
    ask (Chain.secpAdd curve p q) fun sum => return [Value.pointBytes sum]
  | .secpGetXY curve =>
    let p ← pointArg args 0
    ask (Chain.secpGetXY curve p) fun p => return [Value.wideBytes p.1, Value.wideBytes p.2]

/-- A revert becomes the failing answer; any other refusal ends the run. -/
def syscall (call : Syscall) (args : List Image) : Action (List Image) := do
  match (← get).host.chain with
  | none =>
    throw (.report .missingSyscallHandler
      ("syscall_" ++ call.name ++ " called without a syscall handler") none)
  | some chain =>
    let gas := (← arg args 0).word64
    match ← serve chain gas args.tail call with
    | (.ok results, left) =>
      return Bytes.ofNat 8 left :: Image.ofBool false :: Image.zero arrayType :: results
    | (.error (.revert data), left) =>
      let reason ← onHeap (Value.writeFelts data)
      return Bytes.ofNat 8 left :: Image.ofBool true :: reason :: call.results.map Image.zero
    | (.error (.abort cause), _) => throw cause

def run : Service → HostFn Host
  | .feltDiv => fun args => do
    let divisor ← feltArg args 1
    if divisor.isZero then throw (.native "felt252_div by zero")
    return [((← feltArg args 0).div divisor).toBytes]
  | .debugPrint => fun args => do
    let fs ← onHeap (Value.readFelts (← arg args 0))
    modify fun w =>
      if w.host.keeps then
        { w with host := { w.host with
            printed := w.host.printed ++ String.join (fs.map printedLine) } }
      else w
    return []
  | .intSqrt => fun args => do return [Bytes.ofNat 32 (wordSqrt (← arg args 0).word)]
  | .ecPointTryNew => fun args => do
    let x ← feltArg args 0
    let y ← feltArg args 1
    return [Image.ofBool (y.mul y == curveSquare x)]
  | .ecPointFromX => fun args => do
    match (curveSquare (← feltArg args 0)).sqrt? with
    | some y => return [Image.ofBool true, y.toBytes]
    | none => return [Image.ofBool false, Image.zero (.int 252)]
  | .syscall call => syscall call

def table (name : String) : Option (HostFn Host) := (Service.ofName? name).map run

end Host

end Sierra

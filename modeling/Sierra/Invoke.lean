import Sierra.Artifact
import Sierra.Host.Table

/-!
# Invocation

An invocation passes values in, supplies the counters of builtins, runs the entry point with a
budget of gas and reads the results back. A program that panics or runs out of gas has failed, which
is a result.
-/

namespace Sierra

structure Executable where
  artifact : Artifact
  program : Machine.Program

structure Budget where
  /-- The gas to start with; unlimited when missing. -/
  gas : Option Nat := none
  /-- The usual depth unless positive. -/
  maxDepth : Int := 0

def Budget.initial (b : Budget) : Nat := b.gas.getD (pow2 64 - 1)

structure Outcome where
  remaining : Option Nat := none
  consumed : Nat := 0
  counters : List (String × Nat) := []
  value : Value := .invalid
  failed : Bool := false
  panicData : List Felt := []
deriving Inhabited

def Outcome.message (o : Outcome) : String :=
  if o.failed then Refusal.describe o.panicData else ""

structure ContractOutcome where
  remaining : Nat
  failed : Bool
  values : List Felt
  message : String
  events : List ChainEvent

namespace Executable

def load (a : Artifact) : Except Failure Executable := do
  match a.module with
  | none => .error (.report .libraryLoad "artifact has no module" none)
  | some m =>
    let program ← Machine.prepare m
    match m.runtime.find? fun d => (Host.table d.name).isNone with
    | some d =>
      .error (.report .link ("module " ++ m.name)
        (some (.typed .link s!"jit: runtime function {d.name} is not bound")))
    | none =>
      match a.entries.find? fun e => (program.func? e.name).isNone with
      | some e => .error (.native ("entry point " ++ e.name ++ " has no compiled function"))
      | none => return ⟨a, program⟩

def gasName : String := "GasBuiltin"

def isCounter (d : Descriptor) : Bool := d.shape = .builtin

def takesGas (ds : List Descriptor) : Bool := ds.any fun d => isCounter d && d.generic == gasName

def outOfGas : List Felt := [(Felt.ofShortString? "Out of gas").getD Felt.zero]

def supply (gas : Nat) : List Descriptor → List Value → List (Descriptor × Value)
  | [], _ => []
  | d :: ds, args =>
    if isCounter d then
      (d, .number .builtin (some (if d.generic == gasName then gas else 0))) :: supply gas ds args
    else
      match args with
      | [] => []
      | v :: rest => (d, v) :: supply gas ds rest

def passAll (c : Value.Codec) (entry : String) :
    (index : Nat) → List (Descriptor × Value) → Value.Passing (List Bytes)
  | _, [] => return []
  | index, (d, v) :: rest => do
    let image ← tryCatch (c.encode d.id v) fun cause =>
      throw (cause.wrapWith (entry ++ s!": argument {index}"))
    return image :: (← passAll c entry (index + 1) rest)

def keepCounter (name : String) (n : Nat) : List (String × Nat) → List (String × Nat)
  | [] => [(name, n)]
  | (other, m) :: rest =>
    if name < other then (name, n) :: (other, m) :: rest
    else if name = other then (name, n) :: rest
    else (other, m) :: keepCounter name n rest

def isPanicResult (d : Descriptor) : Bool :=
  d.shape = .enum && d.members.length == 2 && d.name.startsWith "core::panics::PanicResult"

/-- A panic is noted in the outcome. -/
def unwrapPanic (o : Outcome) : Value → Except Failure (Value × Outcome)
  | .enum 0 (some v) => .ok (v, o)
  | .enum _ (some payload) =>
    match payload with
    | .struct [_, data] => do
      match ← data.felts? with
      | some fs => return (.struct [], { o with failed := true, panicData := fs })
      | none => .error (.native ("panic data is not an array of felts: " ++ data.text))
    | _ => .error (.native ("panic payload decoded as " ++ payload.text))
  | v => .error (.native ("panic result decoded as " ++ v.shape.name))

/-- A counter goes into the outcome. -/
def takeResult (c : Value.Codec) (id : Nat) (image : Bytes) (o : Outcome) :
    Value.Passing (Option Value × Outcome) := do
  let d ← Value.lift (c.types.get id)
  if isCounter d then
    let n := Machine.Image.word64 image
    if d.generic == gasName then return (none, { o with remaining := some n })
    if d.generic == "System" || d.generic == "BuiltinCosts" then return (none, o)
    return (none, { o with counters := keepCounter d.generic n o.counters })
  let v ← c.decode id image
  if isPanicResult d then
    let (v, o) ← Value.lift (unwrapPanic o v)
    return (some v, o)
  return (some v, o)

/-- Several values make a struct. -/
def takeResults (c : Value.Codec) (e : EntryPoint) (out : List Bytes) : Value.Passing Outcome := do
  if out.length ≠ e.returns.length then
    throw (.native (e.name ++ s!" returned {out.length} values, want {e.returns.length}"))
  let (values, o) ← (e.returns.zip out).foldlM (fun (values, o) (id, image) => do
    let (v, o) ← takeResult c id image o
    return (values ++ v.toList, o)) (([] : List Value), ({} : Outcome))
  return match values with
    | [v] => { o with value := v }
    | vs => { o with value := .struct vs }

/-- Want of gas is a result, anything else a fault. -/
def stopped (entry : String) (initial : Nat) : Machine.Stop → Except Failure Outcome
  | .trap t =>
    if t.isOutOfGas then
      .ok { remaining := some 0, consumed := initial, failed := true, panicData := outOfGas }
    else
      let kind : Kind := if t.code = .unreachable then .nativeAssert else .sierraAssert
      .error (.report kind ("invoke " ++ entry) (some (.plain t.text)))
  | stop => .error (stop.failure.wrapWith ("invoke " ++ entry))

def settleGas (initial : Nat) (o : Outcome) : Outcome :=
  match o.remaining with
  | some left => if left ≤ initial then { o with consumed := initial - left } else o
  | none => o

def runEntry (x : Executable) (e : EntryPoint) (ds : List Descriptor) (args : List Value)
    (b : Budget) (available : Nat) (host : Host) : Except Failure Outcome × Host :=
  let codec : Value.Codec := { types := x.artifact.types }
  match passAll codec e.name 0 (supply available ds args) (Heap.new 0) with
  | .error cause _ => (.error cause, host)
  | .ok images heap =>
    let env : Machine.Env Host := ⟨Host.table, Machine.depthOf b.maxDepth⟩
    match Machine.call env x.program e.name images { heap := heap, host := host } with
    | .error stop world => (stopped e.name b.initial stop, world.host)
    | .ok out world =>
      match takeResults codec e out world.heap with
      | .error cause _ => (.error (cause.wrapWith (e.name ++ ": results")), world.host)
      | .ok o _ => (.ok (settleGas b.initial o), world.host)

def invoke (x : Executable) (entry : String) (args : List Value) (b : Budget) (host : Host) :
    Except Failure Outcome × Host :=
  match (do
    let e ← x.artifact.entry entry
    let ds ← e.params.mapM x.artifact.types.get
    let wanted := ds.countP fun d => !isCounter d
    if wanted ≠ args.length then
      .error (.report .unexpectedValue
        (entry ++ s!" takes {wanted} arguments, got {args.length}") none)
    return (e, ds) : Except Failure (EntryPoint × List Descriptor)) with
  | .error cause => (.error cause, host)
  | .ok (e, ds) =>
    if takesGas ds then
      if b.initial < e.required then
        (.ok { remaining := some b.initial, failed := true, panicData := outOfGas }, host)
      else runEntry x e ds args b (b.initial - e.required) host
    else runEntry x e ds args b b.initial host

/-- Perhaps inside structs of one field. -/
def spanFelts? : Value → Except Failure (Option (List Felt))
  | .struct [v] => spanFelts? v
  | v => v.felts?

def calldataArg (entry : String) (ds : List Descriptor) (data : List Felt) :
    Except Failure Value :=
  let refused (text : String) : Except Failure Value := .error (.report .unexpectedValue text none)
  match ds.filter fun d => !isCounter d with
  | [] => refused (entry ++ " takes no calldata span")
  | [span] =>
    let array := Value.ofFelts data
    match span.shape, span.members with
    | .array, _ => .ok array
    | .struct, [_] => .ok (.struct [array])
    | _, _ => refused (entry ++ ": calldata type " ++ span.name ++ " is not a span")
  | _ => refused (entry ++ " takes more than the calldata span")

def contractOutcome (entry : String) (before : Nat) (o : Outcome) (host : Host) :
    Except Failure ContractOutcome := do
  let values ← if o.failed then pure o.panicData
    else match ← spanFelts? o.value with
      | some fs => pure fs
      | none =>
        .error (.native (entry ++ ": contract returned " ++ o.value.text ++
          ", want a span of felts"))
  return {
    remaining := o.remaining.getD 0
    failed := o.failed
    values := values
    message := o.message
    events := (host.chain.elim [] (·.events)).drop before }

/-- A contract takes a span of field elements and gives one back. -/
def invokeContract (x : Executable) (entry : String) (data : List Felt) (b : Budget)
    (host : Host) : Except Failure ContractOutcome × Host :=
  match (do
    let e ← x.artifact.entry entry
    let ds ← e.params.mapM x.artifact.types.get
    calldataArg entry ds data : Except Failure Value) with
  | .error cause => (.error cause, host)
  | .ok arg =>
    let before := (host.chain.elim [] (·.events)).length
    match x.invoke entry [arg] b host with
    | (.error cause, host) => (.error cause, host)
    | (.ok o, host) => (contractOutcome entry before o host, host)

def requiredGas (x : Executable) (entry : String) : Except Failure Nat := do
  return (← x.artifact.entry entry).required

end Executable

end Sierra

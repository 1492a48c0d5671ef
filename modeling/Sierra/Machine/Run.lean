import Sierra.Heap
import Sierra.Ir.Verify
import Sierra.Machine.Image
import Sierra.Text.Quoted

/-!
# Running code

Registers hold images, blocks run their operations and pass values along edges, calls nest up to a
depth. A run ends in returned values, a trap, or an error of the machine or of a host function.

A run is bounded by a count of rounds, each an operation or the end of a block. Running out of them
is an ending of its own; any other ending is the same with more rounds. A host function reads and
changes the world, which holds the heap and the state of the host.
-/

namespace Sierra.Machine

open Ir

/-- The heap, the state of the host and the number of edges taken. -/
structure World (σ : Type) where
  heap : Heap
  host : σ
  steps : Nat := 0

structure Trap where
  code : TrapCode
  message : String
  function : String
  /-- The calling functions, outermost first. -/
  callers : List String := []
deriving DecidableEq, Repr, Inhabited

namespace Trap

def text (t : Trap) : String :=
  s!"trap {t.code.name} in {t.function}" ++ (if t.message = "" then "" else ": " ++ t.message)

def backtrace (t : Trap) : List String := t.callers.reverse

def isOutOfGas (t : Trap) : Bool := t.code = .outOfGas

end Trap

inductive Stop where
  | trap (trap : Trap)
  | error (cause : Failure)
  | outOfRounds
deriving Inhabited

namespace Stop

/-- A trap notes the calling function. -/
def through (caller : String) : Stop → Stop
  | trap t => trap { t with callers := caller :: t.callers }
  | stop => stop

def failure : Stop → Failure
  | trap t => .plain t.text
  | error cause => cause
  | outOfRounds => .plain "out of rounds"

end Stop

abbrev Exec (σ α : Type) := EStateM Stop (World σ) α

abbrev HostFn (σ : Type) := List Image → EStateM Failure (World σ) (List Image)

structure Env (σ : Type) where
  host : String → Option (HostFn σ)
  maxDepth : Nat

def defaultDepth : Nat := 10000

/-- A request that is not positive asks for the default. -/
def depthOf (request : Int) : Nat := if request ≤ 0 then defaultDepth else request.toNat

structure Program where
  module : Module
  funcs : List Func

/-- Of several functions of one name only the last. -/
def callable : List Func → List Func
  | [] => []
  | f :: rest => if rest.any (·.name == f.name) then callable rest else f :: callable rest

namespace Program

def func? (p : Program) (name : String) : Option Func := p.funcs.find? fun f => f.name == name

end Program

def hasShape (op : Op) : Bool :=
  let (args, results) : Nat × Nat := match op.code with
    | .const | .zero => (0, 1)
    | .binary _ | .icmp | .insert | .ptradd => (2, 1)
    | .modular _ | .select | .realloc => (3, 1)
    | .cast _ | .extract | .alloc | .load => (1, 1)
    | .store => (2, 0)
    | .memcpy => (3, 0)
    | .invalid | .call | .runtimeCall => (0, 0)
  decide (args ≤ op.args.length) && decide (results ≤ op.results.length)

/-- The image of zeros is made beforehand, so there must be room for it. -/
def opFault? (op : Op) : Option Failure :=
  if op.code = .invalid then some (.plain ("unsupported op " ++ op.code.name))
  else if hasShape op && (op.code ≠ .zero || Bytes.canHold op.type.storeSize) then none
  else some (.crash none)

def funcFault? (f : Func) : Option Failure :=
  f.blocks.toList.zipIdx.findSome? fun (b, i) =>
    b.ops.zipIdx.findSome? fun (op, j) =>
      (opFault? op).map (Failure.noted s!"jit: {f.name} block {i} op {j}")

def prepare (m : Module) : Except Failure Program :=
  match m.verify with
  | .error cause => .error (.report .target ("jit: module " ++ m.name) (some cause))
  | .ok () =>
    let funcs := callable m.funcs
    match funcs.findSome? funcFault? with
    | some fault => .error (fault.reportAs .backendCompile "")
    | none => .ok ⟨m, funcs⟩

structure Frame where
  func : Func
  regs : Array Image
  ops : List Op
  term : Terminator
  depth : Nat
deriving Inhabited

def reg (regs : Array Image) (v : ValueId) : Image := (regs[v.toNat]?).getD []

def argReg (regs : Array Image) (op : Op) (index : Nat) : Image :=
  match op.args[index]? with
  | some v => reg regs v
  | none => []

def setReg (regs : Array Image) (v : ValueId) (image : Image) : Array Image :=
  regs.setIfInBounds v.toNat image

def setResult (regs : Array Image) (op : Op) (image : Image) : Array Image :=
  match op.results with
  | v :: _ => setReg regs v image
  | [] => regs

/-- There is no answer when values are missing. -/
def assign? (regs : Array Image) : List ValueId → List Image → Option (Array Image)
  | [], _ => some regs
  | _ :: _, [] => none
  | v :: vs, image :: images => assign? (setReg regs v image) vs images

def extract? (image : Image) (offset size : Int) : Option Image :=
  if Bytes.holds image.length offset size then
    some ((image.drop offset.toNat).take size.toNat)
  else none

/-- What does not fit is dropped. -/
def insert? (image part : Image) (offset : Int) : Option Image :=
  if offset < 0 ∨ image.length < offset.toNat then none
  else
    let room := image.length - offset.toNat
    some (image.take offset.toNat ++ part.take room ++ image.drop (offset.toNat + part.length))

def pureResult (f : Func) (regs : Array Image) (op : Op) : Except Stop Image :=
  let a := argReg regs op
  let width := (argType f op 0).width
  let abort (message : String) : Except Stop Image :=
    .error (.trap { code := .assert, message := message, function := f.name })
  let orCrash (image : Option Image) : Except Stop Image :=
    match image with
    | some image => .ok image
    | none => .error (.error (.crash none))
  let sized (image : Image) : Except Stop Image :=
    if Bytes.canHold op.type.storeSize then .ok image else .error (.error (.crash none))
  match op.code with
  | .const => .ok (Image.normalize op.type op.imm)
  | .zero => .ok (Image.zero op.type)
  | .binary code =>
    match Word.binary code width (a 0).word (a 1).word with
    | some z => .ok (Image.ofWord op.type z)
    | none => abort (op.code.name ++ " by zero")
  | .modular code =>
    match Word.modular code op.type.width (a 0).word (a 1).word (a 2).word with
    | some z => sized (Image.ofWord op.type z)
    | none => abort (op.code.name ++ " with zero modulus")
  | .icmp => .ok (Image.ofBool (evalPred op.pred width (a 0).word (a 1).word))
  | .select => .ok (if (a 0).flag then a 1 else a 2)
  | .cast code =>
    if (argType f op 0).isInt && op.type.isInt then
      .ok (Image.ofWord op.type (Word.cast code width op.type.width (a 0).word))
    else sized (Bytes.fit op.type.storeSize.toNat (a 0))
  | .extract =>
    orCrash ((extract? (a 0) op.offset op.type.storeSize).map (Image.normalize op.type))
  | .insert => orCrash (insert? (a 0) (a 1) op.offset)
  | .ptradd => .ok (Image.ofAddress (((a 0).word64 + (a 1).word64) % Heap.addressSpace))
  | _ => .ok []

def callHost {σ : Type} (env : Env σ) (m : Module) (regs : Array Image) (op : Op) :
    Exec σ (Array Image) := fun world =>
  let fail (cause : Failure) (world : World σ) : EStateM.Result Stop (World σ) (Array Image) :=
    .error (.error cause) world
  match m.runtime? op.callee, env.host op.callee with
  | none, _ => fail (.crash none) world
  | some decl, none =>
    fail (.typed .link s!"jit: runtime function {decl.name} is not bound") world
  | some decl, some impl =>
    match impl (op.args.map (reg regs)) world with
    | .error cause world => fail cause world
    | .ok out world =>
      if out.length ≠ op.results.length then
        fail (.plain (s!"jit: runtime {decl.name} returned {out.length} values, " ++
          s!"want {op.results.length}")) world
      else
        match ((out.zip decl.results).zipIdx).find? fun ((image, t), _) =>
            image.length ≠ t.storeSize with
        | some ((image, t), index) =>
          fail (.plain (s!"jit: runtime {decl.name} result {index} is {image.length} bytes, " ++
            "want " ++ t.text)) world
        | none =>
          let images := (out.zip decl.results).map fun (image, t) => Image.normalize t image
          match assign? regs op.results images with
          | some regs => .ok regs world
          | none => fail (.crash none) world

def onHeap {σ α : Type} (step : Heap.Action α) (finish : α → Array Image) :
    Exec σ (Array Image) := fun ⟨heap, host, steps⟩ =>
  match step heap with
  | .ok a heap => .ok (finish a) ⟨heap, host, steps⟩
  | .error fault heap => .error (.error fault) ⟨heap, host, steps⟩

def execOp {σ : Type} (env : Env σ) (m : Module) (f : Func) (regs : Array Image) (op : Op) :
    Exec σ (Array Image) :=
  let a (index : Nat) : Nat := (argReg regs op index).word64
  match op.code with
  | .alloc => onHeap (Heap.alloc (a 0)) fun p => setResult regs op (Image.ofAddress p)
  | .realloc =>
    onHeap (Heap.realloc (a 0) (a 1) (a 2)) fun p => setResult regs op (Image.ofAddress p)
  | .load =>
    onHeap (Heap.read (a 0) (Heap.address op.type.storeSize)) fun bytes =>
      setResult regs op (Image.normalize op.type bytes)
  | .store => onHeap (Heap.write (a 0) (argReg regs op 1)) fun _ => regs
  | .memcpy => onHeap (Heap.copy (a 0) (a 1) (a 2)) fun _ => regs
  | .runtimeCall => callHost env m regs op
  | _ => fun world =>
    match pureResult f regs op with
    | .ok image => .ok (setResult regs op image) world
    | .error stop => .error stop world

inductive Next where
  | jump (edge : Edge)
  | done (values : List Image)
  | stop (stop : Stop)

def nextOf (f : Func) (regs : Array Image) : Terminator → Next
  | .br edge => .jump edge
  | .condBr cond yes no => .jump (if (reg regs cond).flag then yes else no)
  | .switch value cases default _ =>
    let z := (reg regs value).word
    match if z < pow2 64 then cases.find? (fun case => case.1 == z) else none with
    | some case => .jump case.2
    | none => .jump default
  | .ret values => .done (values.map (reg regs))
  | .trap code message =>
    .stop (.trap { code := code, message := message, function := f.name })
  | .none => .stop (.error (.crash none))

/-- Values are read before any parameter is written. -/
def jump? (frame : Frame) (edge : Edge) : Option Frame := do
  let target ← frame.func.block? edge.target
  let regs ← assign? frame.regs target.params (edge.args.map (reg frame.regs))
  return { frame with regs := regs, ops := target.ops, term := target.term }

def enter {σ : Type} (env : Env σ) (f : Func) (args : List Image) (depth : Nat) :
    Except Stop Frame :=
  if env.maxDepth ≤ depth then
    .error (.trap { code := .assert, function := f.name,
                    message := s!"call depth limit {env.maxDepth} exceeded" })
  else
    match f.block? f.entry with
    | none => .error (.error (.crash none))
    | some entry =>
      match assign? (Array.replicate f.values.size []) entry.params args with
      | none => .error (.error (.crash none))
      | some regs =>
        .ok { func := f, regs := regs, ops := entry.ops, term := entry.term, depth := depth }

def run {σ : Type} (env : Env σ) (p : Program) : (rounds : Nat) → Frame → Exec σ (List Image)
  | 0, _, world => .error .outOfRounds world
  | rounds + 1, ⟨func, regs, [], term, depth⟩, world =>
    match nextOf func regs term with
    | .done values => .ok values world
    | .stop stop => .error stop world
    | .jump edge =>
      match jump? ⟨func, regs, [], term, depth⟩ edge with
      | some frame => run env p rounds frame { world with steps := world.steps + 1 }
      | none => .error (.error (.crash none)) world
  | rounds + 1, ⟨func, regs, op :: rest, term, depth⟩, world =>
    if op.code = .call then
      match p.func? op.callee with
      | none => .error (.error (.crash none)) world
      | some callee =>
        match enter env callee (op.args.map (reg regs)) (depth + 1) with
        | .error stop => .error (stop.through func.name) world
        | .ok inner =>
          match run env p rounds inner world with
          | .error stop world => .error (stop.through func.name) world
          | .ok out world =>
            match assign? regs op.results out with
            | some regs => run env p rounds ⟨func, regs, rest, term, depth⟩ world
            | none => .error (.error (.crash none)) world
    else
      match execOp env p.module func regs op world with
      | .error stop world => .error stop world
      | .ok regs world => run env p rounds ⟨func, regs, rest, term, depth⟩ world

def manyRounds : Nat := pow2 62

def callFault? (f : Func) (args : List Image) : Option Failure :=
  if args.length ≠ f.params.length then
    some (.report .unexpectedValue
      s!"jit: {f.name} takes {f.params.length} arguments, got {args.length}" none)
  else
    ((args.zip f.params).zipIdx.find? fun ((image, t), _) => image.length ≠ t.storeSize).map
      fun ((image, t), index) =>
        .report .unexpectedValue
          (s!"jit: {f.name} argument {index} is {image.length} bytes, want " ++ t.text) none

def call {σ : Type} (env : Env σ) (p : Program) (name : String) (args : List Image) :
    Exec σ (List Image) := fun world =>
  match p.func? name with
  | none =>
    .error (.error (.report .unexpectedValue ("jit: no function " ++ Text.quote name) none)) world
  | some f =>
    match callFault? f args with
    | some fault => .error (.error fault) world
    | none =>
      let args := (args.zip f.params).map fun (image, t) => Image.normalize t image
      match enter env f args 0 with
      | .error stop => .error stop world
      | .ok frame => run env p manyRounds frame world

end Sierra.Machine

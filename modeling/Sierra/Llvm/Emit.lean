import Sierra.Ir.Fold
import Sierra.Llvm.Syntax

/-!
# Code generation

Block parameters live in stack slots: edges store what they pass and blocks load it. Constants stand
where they are read. An edge that passes values out of a branch gets a block of its own. An
operation without the operands or results its code needs is a crash.
-/

namespace Sierra.Llvm

open Ir

def maxBits : Nat := 256

def wide : LTy := .int (2 * maxBits)

def typeOf : Ty → Except Failure LTy
  | .int bits =>
    if bits ≤ 0 ∨ maxBits < bits then .error (.plain s!"invalid integer width {bits}")
    else .ok (.int bits.toNat)
  | .ptr => .ok .ptr
  | .blob size _ => .ok (.bytes size)
  | .none => .error (.plain ("type " ++ Ty.none.text ++ " has no LLVM representation"))

def retOf : List Ty → Except Failure Ret
  | [] => .ok .void
  | [t] => do return .one (← typeOf t)
  | ts => do return .many (← ts.mapM typeOf)

structure Signature where
  ret : Ret
  params : List LTy
  results : List Ty
deriving Inhabited

def signatureOf (params results : List Ty) : Except Failure Signature := do
  let params ← params.mapM typeOf
  return ⟨← retOf results, params, results⟩

def constOf (t : Ty) (imm : Bytes) : Except Failure Operand :=
  match t with
  | .int 1 => .ok (.bool (match imm with
    | b :: _ => b.toNat % 2 == 1
    | [] => false))
  | .int bits => .ok (.int (Word.mask (Word.width bits) (Fold.wordOf imm)))
  | .ptr => .ok (if Bytes.toNat imm = 0 then .null else .address (Bytes.toNat imm))
  | .blob size _ => .ok (if imm.all (· == 0) then .zeros else .bytes (Bytes.fit size.toNat imm))
  | .none => .error (.plain ("constant of type " ++ Ty.none.text))

def zeroOf : Ty → Operand
  | .int 1 => .bool false
  | .int _ => .int 0
  | .ptr => .null
  | _ => .zeros

structure Context where
  funcs : List (String × Signature)
  hosts : List (String × Signature)

/-- Of several signatures of one name the last counts. -/
def Context.find (entries : List (String × Signature)) (name : String) : Option Signature :=
  (entries.reverse.find? fun entry => entry.1 == name).map (·.2)

structure State where
  count : Nat := 0
  allocas : Array Instr := #[]
  body : Array Line := #[]
  pending : List (Label × Edge) := []
  asserts : Bool := false
  messages : Array String := #[]

abbrev Emit := StateT State (Except Failure)

def put (i : Instr) : Emit PUnit := modify fun s => { s with body := s.body.push (.instr i) }

def putLabel (l : Label) : Emit PUnit :=
  modify fun s => { s with body := s.body.push (.label l) }

def fresh : Emit Nat := modifyGet fun s => (s.count + 1, { s with count := s.count + 1 })

def temp : Emit Operand := do return .named (.temp (← fresh))

def fail {α : Type} (text : String) : Emit α := throw (.plain text)

structure Source where
  context : Context
  func : Func
  values : Array Operand

namespace Source

def result (s : Source) (v : ValueId) : Emit Operand :=
  if v < 0 then throw (.crash none)
  else match s.values[v.toNat]? with
    | some x => return x
    | none => throw (.crash none)

/-- A missing result leaves its place blank. -/
def firstResult (s : Source) (op : Op) : Emit Operand :=
  match op.results with
  | [] => return .blank
  | v :: _ => s.result v

def oneResult (s : Source) (op : Op) : Emit Operand :=
  match op.results with
  | [] => throw (.crash none)
  | v :: _ => s.result v

def arg (op : Op) (index : Nat) : Emit ValueId :=
  match op.args[index]? with
  | some v => return v
  | none => throw (.crash none)

def operand (s : Source) (v : ValueId) : Emit (LTy × Operand) :=
  match if v < 0 then none else s.values[v.toNat]? with
  | none => fail s!"invalid value {v}"
  | some x => do return (← liftExcept (typeOf (s.func.typeOf v)), x)
where
  liftExcept {α : Type} (r : Except Failure α) : Emit α := fun state => r.map fun a => (a, state)

def operandAt (s : Source) (op : Op) (index : Nat) : Emit (LTy × Operand) := do
  s.operand (← arg op index)

def size (s : Source) (op : Op) (index : Nat) : Emit Operand := do
  let v ← arg op index
  let (type, x) ← s.operand v
  match s.func.typeOf v with
  | .int bits =>
    if bits = 64 then return x
    else
      let t ← temp
      put (.convert t (if bits < 64 then "zext" else "trunc") type x (.int 64))
      return t
  | t => fail ("size operand of type " ++ t.text)

end Source

open Source (arg)

def emitType (t : Ty) : Emit LTy := fun state => (typeOf t).map fun a => (a, state)

def scratch (size align : Int) : Emit Operand := do
  let n ← fresh
  modify fun s => { s with allocas := s.allocas.push (.alloca (.temp n) (.bytes size) align) }
  return .named (.temp n)

def checkNonZero (type : LTy) (x : Operand) : Emit PUnit := do
  let c ← temp
  put (.icmp c "eq" type x (if type = .int 1 then .bool false else .int 0))
  let ok := Label.ok (← fresh)
  modify fun s => { s with asserts := true }
  put (.condBr c .trapAssert ok)
  putLabel ok

def emitBinary (s : Source) (op : Op) (code : Word.Binary) : Emit PUnit := do
  let v ← arg op 0
  let (type, x) ← s.operand v
  let (_, y) ← s.operandAt op 1
  let bits : Int := (s.func.typeOf v).bits
  let r ← s.oneResult op
  match code with
  | .udiv | .urem | .sdiv | .srem =>
    checkNonZero type y
    put (.binary r op.code.name type x y)
  | .shl | .lshr =>
    let inRange ← temp
    put (.icmp inRange "ult" type y (.int bits))
    let shifted ← temp
    put (.binary shifted op.code.name type x y)
    put (.select r inRange type shifted type (.int 0))
  | .ashr =>
    let inRange ← temp
    put (.icmp inRange "ult" type y (.int bits))
    let n ← temp
    put (.select n inRange type y type (.int (bits - 1)))
    put (.binary r "ashr" type x n)
  | _ => put (.binary r op.code.name type x y)

def wideStep (code : String) (x y : Operand) : Emit Operand := do
  let t ← temp
  put (.binary t code wide x y)
  return t

def widened (s : Source) (op : Op) (index : Nat) : Emit Operand := do
  let (type, x) ← s.operandAt op index
  let t ← temp
  put (.convert t "zext" type x wide)
  return t

def emitModular (s : Source) (op : Op) (code : Word.Modular) : Emit PUnit := do
  let x ← widened s op 0
  let y ← widened s op 1
  let m ← widened s op 2
  checkNonZero wide m
  let w ← match code with
    | .addmod => do wideStep "urem" (← wideStep "add" x y) m
    | .mulmod => do wideStep "urem" (← wideStep "mul" x y) m
    | .submod => do
      let a ← wideStep "urem" x m
      let b ← wideStep "urem" y m
      wideStep "urem" (← wideStep "add" (← wideStep "sub" a b) m) m
  let type ← emitType op.type
  put (.convert (← s.oneResult op) "trunc" wide w type)

/-- Between other types the bytes go through memory. -/
def emitCast (s : Source) (op : Op) (code : Word.Cast) : Emit PUnit := do
  let v ← arg op 0
  let (fromType, x) ← s.operand v
  let source := s.func.typeOf v
  let toType ← emitType op.type
  let r ← s.oneResult op
  match source, op.type with
  | .int a, .int b =>
    let name := if a = b then "bitcast" else if b < a then "trunc"
      else if code = .sext then "sext" else "zext"
    put (.convert r name fromType x toType)
  | _, _ =>
    let size := max source.storeSize op.type.storeSize
    let align := max source.alignOf op.type.alignOf
    let buffer ← scratch size align
    put (.store (.bytes size) .zeros buffer align)
    put (.store fromType x buffer align)
    put (.load r toType buffer align)

def callArgs (s : Source) : List ValueId → List LTy → Emit (List (LTy × Operand))
  | v :: vs, type :: types => do
    let (_, x) ← s.operand v
    return (type, x) :: (← callArgs s vs types)
  | _, _ => return []

def emitCall (s : Source) (op : Op) (sig : Signature) : Emit PUnit := do
  let callee := globalName op.callee
  if op.args.length ≠ sig.params.length then
    fail s!"{callee} takes {sig.params.length} arguments, got {op.args.length}"
  if op.results.length ≠ sig.results.length then
    fail s!"{callee} returns {sig.results.length} values, got {op.results.length}"
  let args ← callArgs s op.args sig.params
  match op.results with
  | [] => put (.call none sig.ret callee args)
  | [v] => put (.call (some (← s.result v)) sig.ret callee args)
  | results =>
    let aggregate ← temp
    put (.call (some aggregate) sig.ret callee args)
    for (v, index) in results.zipIdx do
      put (.extractValue (← s.result v) sig.ret aggregate index)

def emitOp (s : Source) (op : Op) : Emit PUnit :=
  match op.code with
  | .const | .zero => return ()
  | .binary code => emitBinary s op code
  | .modular code => emitModular s op code
  | .cast code => emitCast s op code
  | _ => do
    let r ← s.firstResult op
    match op.code with
    | .icmp =>
      let (type, x) ← s.operandAt op 0
      let (_, y) ← s.operandAt op 1
      put (.icmp r ((op.pred.map predName).getD "") type x y)
    | .select =>
      let (_, c) ← s.operandAt op 0
      let (xType, x) ← s.operandAt op 1
      let (yType, y) ← s.operandAt op 2
      put (.select r c xType x yType y)
    | .extract =>
      let v ← arg op 0
      let (aggType, agg) ← s.operand v
      let type ← emitType op.type
      let t := s.func.typeOf v
      let buffer ← scratch t.storeSize t.alignOf
      put (.store aggType agg buffer t.alignOf)
      let p ← temp
      put (.offset p buffer (.int op.offset))
      put (.load r type p 1)
    | .insert =>
      let v ← arg op 0
      let (aggType, agg) ← s.operand v
      let (type, x) ← s.operandAt op 1
      let t := s.func.typeOf v
      let buffer ← scratch t.storeSize t.alignOf
      put (.store aggType agg buffer t.alignOf)
      let p ← temp
      put (.offset p buffer (.int op.offset))
      put (.store type x p 1)
      put (.load r aggType buffer t.alignOf)
    | .alloc =>
      let size ← s.size op 0
      put (.call (some r) (.one .ptr) "@rt_alloc" [(.int 64, size), (.int 64, .int 16)])
    | .realloc =>
      let (_, p) ← s.operandAt op 0
      let old ← s.size op 1
      let new ← s.size op 2
      put (.call (some r) (.one .ptr) "@rt_realloc"
        [(.ptr, p), (.int 64, old), (.int 64, new), (.int 64, .int 16)])
    | .load =>
      let (_, p) ← s.operandAt op 0
      let type ← emitType op.type
      put (.load r type p 1)
    | .store =>
      let (_, p) ← s.operandAt op 0
      let (type, x) ← s.operandAt op 1
      put (.store type x p 1)
    | .memcpy =>
      let (_, target) ← s.operandAt op 0
      let (_, source) ← s.operandAt op 1
      let n ← s.size op 2
      put (.call none .void "@rt_memcpy" [(.ptr, target), (.ptr, source), (.int 64, n)])
    | .ptradd =>
      let (_, p) ← s.operandAt op 0
      let amount ← s.size op 1
      put (.offset r p amount)
    | .call =>
      match Context.find s.context.funcs op.callee with
      | some sig => emitCall s op sig
      | none => fail ("call to undefined function " ++ Text.quote op.callee)
    | .runtimeCall =>
      match Context.find s.context.hosts op.callee with
      | some sig => emitCall s op sig
      | none => fail ("runtime function " ++ Text.quote op.callee ++ " is not declared")
    | _ => fail ("unsupported op " ++ op.code.name)

def storeEdge (s : Source) (e : Edge) : Emit PUnit :=
  match s.func.block? e.target with
  | none => fail s!"branch to missing block {e.target}"
  | some target => do
    if e.args.length ≠ target.params.length then
      fail s!"bb{e.target} takes {target.params.length} values, edge passes {e.args.length}"
    for (v, p) in e.args.zip target.params do
      let (type, x) ← s.operand v
      put (.store type x (.named (.slot p)) (s.func.typeOf p).alignOf)

/-- An edge that passes values gets a block of its own. -/
def edgeLabel (e : Edge) : Emit Label := do
  if e.args.isEmpty then return .block e.target
  else
    let l := Label.edge (← fresh)
    modify fun s => { s with pending := s.pending ++ [(l, e)] }
    return l

def flushEdges (s : Source) : Emit PUnit := do
  let pending := (← get).pending
  modify fun s => { s with pending := [] }
  for (l, e) in pending do
    putLabel l
    storeEdge s e
    put (.br (.block e.target))

def returnMany (s : Source) (ret : Ret) : List (ValueId × Nat) → Operand → Emit PUnit
  | [], aggregate => put (.retMany ret aggregate)
  | (v, index) :: rest, aggregate => do
    let (type, x) ← s.operand v
    let next ← temp
    put (.insertValue next ret aggregate type x index)
    returnMany s ret rest next

/-- The first case of a value, and none that the selector cannot hold. -/
def switchCases (bits : Nat) : (seen : List Nat) → List (Nat × Edge) → Emit (List (Nat × Label))
  | _, [] => return []
  | seen, (value, e) :: rest => do
    if seen.contains value || (bits < 64 && value >>> bits ≠ 0) then switchCases bits seen rest
    else
      let l ← edgeLabel e
      return (value, l) :: (← switchCases bits (value :: seen) rest)

/-- A text seen before keeps its number. -/
def messageIndex (message : String) : Emit Nat := do
  let messages := (← get).messages
  match messages.toList.idxOf? message with
  | some index => return index
  | none =>
    modify fun s => { s with messages := s.messages.push message }
    return messages.size

def emitTerminator (s : Source) (t : Terminator) : Emit PUnit := do
  match t with
  | .ret [] => put .retVoid
  | .ret [v] =>
    let (type, x) ← s.operand v
    put (.retOne type x)
  | .ret values =>
    let ret := ((Context.find s.context.funcs s.func.name).map (·.ret)).getD .void
    returnMany s ret values.zipIdx .undef
  | .br e =>
    storeEdge s e
    put (.br (.block e.target))
  | .condBr cond yes no =>
    let (_, c) ← s.operand cond
    let yes ← edgeLabel yes
    let no ← edgeLabel no
    put (.condBr c yes no)
  | .switch value cases default _ =>
    let (type, x) ← s.operand value
    let cases ← switchCases (s.func.typeOf value).width [] cases
    let default ← edgeLabel default
    put (.switch type x default cases)
  | .trap code message =>
    let index ← if message = "" then pure none else some <$> messageIndex message
    put (.trapCall code.number index)
    put .unreachable
  | .none => fail "unsupported terminator kind 0"
  flushEdges s

def atOp {α : Type} (b : Block) (index : Nat) (op : Op) (body : Emit α) : Emit α := fun state =>
  match body state with
  | .ok r => .ok r
  | .error cause => .error (cause.noted s!"bb{b.id} op {index} ({op.code.name})")

def emitBlock (s : Source) (b : Block) : Emit PUnit := do
  putLabel (.block b.id)
  for p in b.params do
    let type ← emitType (s.func.typeOf p)
    put (.load (.named (.value p)) type (.named (.slot p)) (s.func.typeOf p).alignOf)
  for (op, index) in b.ops.zipIdx do
    atOp b index op (emitOp s op)
  emitTerminator s b.term

def slotsOf (f : Func) (b : Block) : Except Failure (List Instr) :=
  b.params.mapM fun p => do
    return .alloca (.slot p) (← typeOf (f.typeOf p)) (f.typeOf p).alignOf

def foldConst (values : Array Operand) (op : Op) : Except Failure (Array Operand) :=
  let define (x : Operand) : Except Failure (Array Operand) :=
    match op.results with
    | v :: _ =>
      if v < 0 ∨ values.size ≤ v.toNat then .error (.crash none)
      else .ok (values.setIfInBounds v.toNat x)
    | [] => .error (.crash none)
  match op.code with
  | .const => do define (← constOf op.type op.imm)
  | .zero => define (zeroOf op.type)
  | _ => .ok values

def prepareValues (f : Func) : Except Failure (Array Instr × Array Operand) :=
  let names := (List.range f.values.size).map fun (i : Nat) => Operand.named (.value i)
  f.blocks.foldlM (fun (state : Array Instr × Array Operand) b => do
    let slots ← slotsOf f b
    let values ← b.ops.foldlM foldConst state.2
    return (state.1 ++ slots.toArray, values)) (#[], names.toArray)

def emitFunc (context : Context) (messages : Array String) (f : Func) :
    Except Failure (Definition × Array String) := do
  let sig := (Context.find context.funcs f.name).getD default
  let (slots, values) ← prepareValues f
  let entry ← match f.block? f.entry with
    | some entry => pure entry
    | none => throw (.plain s!"missing entry block {f.entry}")
  if entry.params.length ≠ sig.params.length then
    throw (.plain (s!"entry block takes {entry.params.length} values, " ++
      s!"signature has {sig.params.length}"))
  let source : Source := ⟨context, f, values⟩
  let (_, state) ← (f.blocks.toList.forM (emitBlock source)).run
    { allocas := slots, messages := messages }
  let trap : List Line :=
    if state.asserts then
      [.label .trapAssert, .instr (.trapCall TrapCode.assert.number none), .instr .unreachable]
    else []
  let start := (entry.params.zip sig.params).zipIdx.map fun ((p, type), index) =>
    Instr.store type (.named (.arg index)) (.named (.slot p)) (f.typeOf p).alignOf
  return ({
    name := f.name
    isPublic := f.isPublic
    ret := sig.ret
    params := sig.params
    allocas := state.allocas.toList
    start := start ++ [.br (.block f.entry)]
    body := state.body.toList ++ trap }, state.messages)

def supportDeclarations : List Declaration :=
  [⟨"rt_alloc", .one .ptr, [.int 64, .int 64]⟩,
    ⟨"rt_realloc", .one .ptr, [.ptr, .int 64, .int 64, .int 64]⟩,
    ⟨"rt_memcpy", .void, [.ptr, .ptr, .int 64]⟩,
    ⟨"rt_trap", .void, [.int 32, .ptr]⟩]

def signatures (entries : List (String × List Ty × List Ty)) (note : String) :
    Except Failure (List (String × Signature)) :=
  entries.mapM fun (name, params, results) =>
    match signatureOf params results with
    | .ok sig => .ok (name, sig)
    | .error cause => .error (cause.noted (note ++ name))

def emitFuncs (context : Context) : Array String → List Func →
    Except Failure (List Definition × Array String)
  | messages, [] => .ok ([], messages)
  | messages, f :: rest =>
    match emitFunc context messages f with
    | .error cause => .error (cause.noted f.name)
    | .ok (definition, messages) => do
      let (definitions, messages) ← emitFuncs context messages rest
      return (definition :: definitions, messages)

def emitModule (m : Module) : Except Failure Unit := do
  let funcs ← signatures (m.funcs.map fun f => (f.name, f.params, f.results)) ""
  let hosts ← signatures (m.runtime.map fun d => (d.name, d.params, d.results)) "runtime "
  let context : Context := ⟨funcs, hosts⟩
  let (definitions, messages) ← emitFuncs context #[] m.funcs
  let declarations := m.runtime.map fun d =>
    let sig := (Context.find hosts d.name).getD default
    Declaration.mk d.name sig.ret sig.params
  return {
    name := m.name
    declarations := supportDeclarations ++ declarations
    definitions := definitions
    messages := messages.toList }

end Sierra.Llvm

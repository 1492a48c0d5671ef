import Sierra.Gas.Analysis

/-!
# Lowering

One block for each reachable statement, whose parameters are the variables live before it in
ascending order. Where the gas analysis wants a check, the block first takes the amount from the gas
counter, or traps.
-/

namespace Sierra.Lower

open Ir (Ty ValueId BlockId Build)

abbrev Values := List (VarId × ValueId)

def valueOf? (values : Values) (v : VarId) : Option ValueId :=
  (values.find? fun entry => entry.1 == v).map (·.2)

def valueOf (values : Values) (v : VarId) : ValueId := (valueOf? values v).getD (-1)

structure Plan where
  settled : Settled
  gas : Gas.Analysis
  flow : Flow
  blocks : Array (Option BlockId)

namespace Plan

def name (p : Plan) : String := p.flow.function.id.text

def block? (p : Plan) (index : Int) : Option BlockId :=
  if index < 0 then none else (p.blocks[index.toNat]?).getD none

def arrange (p : Plan) (index : Int) (values : Values) : Except Failure (List ValueId) :=
  match p.flow.node? index with
  | none => .error (.native (p.name ++ s!": statement {index} is not reachable"))
  | some n => n.state.mapM fun (v, _) =>
    match valueOf? values v with
    | some value => .ok value
    | none =>
      .error (.native (p.name ++
        s!": variable [{v}] has no value on the way to statement {index}"))

def landing (p : Plan) (n : Flow.Node) (values : Values) (number : Nat) (e : Flow.Edge) :
    Landing :=
  { block := (p.block? e.target).getD (-1)
    accept := fun outputs =>
      if outputs.length ≠ e.results.length then
        .error (.native (p.name ++ s!": statement {n.index} branch {number} produced " ++
          s!"{outputs.length} values, want {e.results.length}"))
      else
        let kept := n.remaining.map fun (v, _) => (v, valueOf values v)
        p.arrange e.target (e.results.zip outputs ++ kept) }

def gasVar? (p : Plan) (n : Flow.Node) : Option VarId :=
  (List.find? (fun entry : VarId × TypeId =>
    (p.settled.types.info? entry.2).any fun info => info.kind == .gasBuiltin) n.state).map (·.1)

def checkGas (p : Plan) (n : Flow.Node) (values : Values) (amount : Nat) : Build Values := do
  match p.gasVar? n with
  | none =>
    throw (.native (p.name ++
      s!": statement {n.index} needs a gas check but holds no gas counter"))
  | some gas =>
    let counter := valueOf values gas
    let cost ← Build.const (.int 64) amount
    let enough ← Build.icmp .uge counter cost
    let left ← Build.sub counter cost
    let goOn ← Build.newBlock
    let out ← Build.newBlock
    Build.condBr enough ⟨goOn, []⟩ ⟨out, []⟩
    Build.moveTo out
    Build.trap .outOfGas ("out of gas in " ++ p.name ++ s!" at statement {n.index}")
    Build.moveTo goOn
    modify fun d => { d with checks := d.checks ++ [(n.index, amount)] }
    return values.map fun (v, value) => if v = gas then (v, left) else (v, value)

def statement (p : Plan) (n : Flow.Node) : Build Unit := do
  let block := (p.block? n.index).getD (-1)
  Build.moveTo block
  let values : Values := (n.state.map (·.1)).zip (← Build.paramsOf block)
  let values ← match p.gas.injectedAt n.index with
    | some (amount + 1) => p.checkGas n values (amount + 1)
    | _ => pure values
  match n.statement, n.libfunc with
  | .ret vars, _ => Build.ret (vars.map (valueOf values))
  | .invoke _, none => throw (.native (p.name ++ s!": statement {n.index} has no libfunc"))
  | .invoke call, some f =>
    let site : Site :=
      { types := p.settled.types
        statement := n.index
        charge := p.gas.chargeAt n.index
        refund := p.gas.refundAt n.index
        args := call.args.map (valueOf values)
        landings := n.edges.zipIdx.map fun (e, number) => p.landing n values number e }
    let place := p.name ++ s!": statement {n.index} (" ++ call.libfunc.text ++ ")"
    tryCatch (f.emit site) fun cause => throw (cause.wrapWith place)
    if !(← get).isClosed then throw (.native (place ++ " left its block open"))

end Plan

def makeBlocks (types : Types) (size : Nat) (nodes : List Flow.Node) :
    Build (Array (Option BlockId)) :=
  nodes.foldlM (fun blocks n => do
    let params ← n.state.mapM fun (_, t) => Build.lift (types.register t)
    let id ← Build.newBlock params
    return blocks.modify n.index.toNat fun _ => some id) (Array.replicate size none)

def body (s : Settled) (gas : Gas.Analysis) (flow : Flow) : Build Unit := do
  let f := flow.function
  let blocks ← makeBlocks s.types flow.nodes.size flow.order
  let plan : Plan := ⟨s, gas, flow, blocks⟩
  Build.moveTo 0
  let values : Values := (f.params.map (·.var)).zip (← Build.paramsOf 0)
  let args ← Build.lift (plan.arrange f.entry values)
  Build.br ((plan.block? f.entry).getD (-1)) args
  flow.order.forM plan.statement

def function (s : Settled) (gas : Gas.Analysis) (flow : Flow) : Build Unit := do
  let f := flow.function
  let params ← f.paramTypes.mapM fun t => Build.lift (s.types.register t)
  let results ← f.retTypes.mapM fun t => Build.lift (s.types.register t)
  let slot ← tryCatch (Build.addFunc f.id.symbol params results true) fun cause =>
    throw (.decl (.duplicateFunction f.id.symbol) (some cause))
  Build.inFunc slot (body s gas flow)

end Sierra.Lower

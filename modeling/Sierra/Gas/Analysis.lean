import Sierra.Gas.Amounts
import Sierra.Gas.Ap

/-!
# Gas analysis

Functions are looked at after those they call; a function that can call itself pays at its own
entry. Amounts are kept by statement: of functions that share one, the amounts of the last stand.
-/

namespace Sierra.Gas

structure Options where
  table : Table := defaultTable
  disabled : Bool := false
  dynamic : Bool := false
deriving Inhabited

structure FunctionGas where
  id : FunctionId
  statements : List Int
  entry : Int := 0
  worst : Option Int := none
  ap : ApChange := .unknown
deriving Inhabited

structure Analysis where
  weights : Cost
  usesGas : Bool
  costs : Array (Option (List Int))
  need : Array (Option Int)
  charges : Array (Option Nat)
  injected : Array (Option Nat)
  refunds : Array (Option Nat)
  funcs : List FunctionGas := []
deriving Inhabited

namespace Analysis

def valueAt {α : Type} (values : Array (Option α)) (index : Int) : Option α :=
  if index < 0 then none else (values[index.toNat]?).getD none

def chargeAt (a : Analysis) (index : Int) : Nat := (valueAt a.charges index).getD 0

def refundAt (a : Analysis) (index : Int) : Nat := (valueAt a.refunds index).getD 0

def injectedAt (a : Analysis) (index : Int) : Option Nat := valueAt a.injected index

def listed {α : Type} (values : Array (Option α)) : List (Nat × α) :=
  values.toList.zipIdx.filterMap fun (value, i) => value.map fun v => (i, v)

def func? (a : Analysis) (id : FunctionId) : Option FunctionGas :=
  a.funcs.find? fun f => f.id.same id

def requiredGas (a : Analysis) (id : FunctionId) : Nat :=
  (a.func? id).elim 0 fun f => toAmount f.entry

def worstCase (a : Analysis) (id : FunctionId) : Option Nat :=
  match a.func? id with
  | none => some 0
  | some f => f.worst.map toAmount

def keep {α : Type} (values : Array (Option α)) (entries : List (Int × α)) : Array (Option α) :=
  entries.foldl (fun values (index, value) => values.modify index.toNat fun _ => some value) values

def record (a : Analysis) (amounts : Amounts) (f : FunctionGas) : Analysis :=
  { a with
    need := keep a.need
      (amounts.view.nodes.toList.zipIdx.map fun (n, i) => (n.index, (amounts.need[i]?).getD 0))
    charges := keep a.charges amounts.charges
    injected := keep a.injected amounts.injected
    refunds := keep a.refunds amounts.refunds
    funcs := a.funcs ++ [f] }

end Analysis

def usesGas (types : Types) (flows : List Flow) : Bool :=
  flows.any fun flow =>
    (flow.function.params.any fun p => (types.info? p.type).any fun i => i.kind = .gasBuiltin) ||
      flow.order.any isCheckpoint

def priceOf (table : Table) (metering : Bool) (n : Flow.Node) (f : Libfunc) :
    Except Failure (List Int) :=
  match table.lookup f.generic n.edges.length with
  | .error cause => .error (.gas (.malformedCostTable cause.message))
  | .ok (some costs) => .ok (costs.map fun c => c.total table.weights)
  | .ok none =>
    if metering then
      let name := match n.statement with
        | .invoke call => call.libfunc.text
        | .ret _ => ""
      .error (.gas (.missingCostEntry (f.generic ++ " (" ++ name ++ ")")))
    else .ok (List.replicate n.edges.length 0)

def priceFlow (table : Table) (metering : Bool) (costs : Array (Option (List Int)))
    (flow : Flow) : Except Failure (Array (Option (List Int))) :=
  flow.order.foldlM (fun costs n =>
    match n.libfunc, Analysis.valueAt costs n.index with
    | some f, none => do
      let price ← priceOf table metering n f
      return costs.modify n.index.toNat fun _ => some price
    | _, _ => .ok costs) costs

/-! ## The order of functions -/

def callGraph (flows : List Flow) : Except Failure (Array (List Nat)) := do
  let rows ← flows.mapM fun flow => (flow.order.filterMap calleeOf).mapM fun callee =>
    match flows.findIdx? fun other => other.function.id.same callee with
    | some i => .ok i
    | none => .error (.decl (.undeclaredFunction s!"[{callee.number}]") none)
  return rows.toArray

/-- Every function is expanded once. -/
def reachesFrom (calls : Array (List Nat)) (goal : Nat) : (fuel : Nat) → (stack seen : List Nat) →
    Bool
  | 0, _, _ => false
  | _ + 1, [], _ => false
  | fuel + 1, f :: stack, seen =>
    if f = goal then true
    else if seen.contains f then reachesFrom calls goal fuel stack seen
    else reachesFrom calls goal fuel ((calls[f]?).getD [] ++ stack) (f :: seen)

def isRecursive (calls : Array (List Nat)) (f : Nat) : Bool :=
  let edges := calls.foldl (fun sum callees => sum + callees.length) 0
  reachesFrom calls f (2 * edges + 1) ((calls[f]?).getD []) []

def checkRecursion (types : Types) (metering : Bool) (flow : Flow) : Except Failure Unit :=
  let f := flow.function
  let live := (flow.node? f.entry).any fun n => liveGas types n.state
  if metering && !live then
    .error (.gas (.malformedCycle f.id.text f.entry
      "recursive function has no gas builtin to check"))
  else .ok ()

/-- Callees first; calls of recursive functions are left out. -/
def callOrder (calls : Array (List Nat)) (recursive : List Nat) : Except Failure (List Nat) :=
  let graph := calls.toList.zipIdx.foldl (fun graph (callees, caller) =>
    callees.foldl (fun graph callee =>
      if recursive.contains callee then graph else graph.insertEdge callee caller) graph)
    (Graph.empty calls.size)
  let layers := graph.layers
  if layers.cyclic then
    .error (.native ("call graph still cyclic after cutting recursion: [" ++
      Text.join " " (layers.cycles.map toString) ++ "]"))
  else .ok layers.order

/-! ## The analysis -/

def analyseFunction (types : Types) (opts : Options) (metering : Bool) (recursive : List Nat)
    (a : Analysis) (flow : Flow) : Except Failure Analysis := do
  let id := flow.function.id
  let isRec (f : FunctionId) : Bool := recursive.contains f.number
  let prices : Prices :=
    { metering := metering
      costs := a.costs
      entryCost := fun f => if isRec f then 0 else (a.func? f).elim 0 (·.entry) }
  let amounts ← amountsOf types prices (isRec id) opts.dynamic flow
  let loops := amounts.cut.any (· == true)
  let worst :=
    if isRec id || loops then none
    else worstCaseOf prices
      (fun f => if isRec f then none else (a.func? f).elim (some 0) (·.worst)) amounts.view
  let ap ← apChangeOf flow fun f =>
    if isRec f then .unknown else (a.func? f).elim .unknown (·.ap)
  return a.record amounts
    { id := id, statements := flow.indices, entry := amounts.entry, worst := worst, ap := ap }

def analyse (s : Settled) (flows : List Flow) (opts : Options) : Except Failure Analysis := do
  match opts.table.fault? with
  | some text => .error (.gas (.malformedCostTable text))
  | none =>
    let usesGas := usesGas s.types flows
    let metering := usesGas && !opts.disabled
    let size := s.program.statements.size
    let costs ← flows.foldlM (priceFlow opts.table metering) (Array.replicate size none)
    let calls ← callGraph flows
    let recursive := (List.range flows.length).filter (isRecursive calls)
    (recursive.filterMap (flows[·]?)).forM (checkRecursion s.types metering)
    let order ← callOrder calls recursive
    let numbers := recursive.filterMap fun i => (flows[i]?).map (·.function.id.number)
    let start : Analysis :=
      { weights := opts.table.weights, usesGas := usesGas, costs := costs
        need := Array.replicate size none, charges := Array.replicate size none
        injected := Array.replicate size none, refunds := Array.replicate size none }
    (order.filterMap (flows[·]?)).foldlM (analyseFunction s.types opts metering numbers) start

def analyseProgram (s : Settled) (opts : Options) : Except Failure Analysis := do
  analyse s (← s.program.funcs.mapM (Flow.ofFunction s)) opts

end Sierra.Gas

import Sierra.Flow
import Sierra.Gas.Cost
import Sierra.Gas.Loops

/-!
# Gas amounts of a function

Gas is paid before it is used: before a statement runs, the most expensive way on up to the next
place that pays for itself, which is a checkpoint, whose success withdraws what its first branch
needs, or the head of a loop, where a check is put in. What a way does not need can be given back.
-/

namespace Sierra.Gas

structure View where
  flow : Flow
  nodes : Array Flow.Node
  /-- The position of each reachable statement. -/
  places : Array Nat

namespace View

def ofFlow (flow : Flow) : View :=
  let nodes := flow.order
  let places := nodes.zipIdx.foldl
    (fun places (n, i) => places.modify n.index.toNat fun _ => i)
    (Array.replicate flow.nodes.size 0)
  ⟨flow, nodes.toArray, places⟩

def size (v : View) : Nat := v.nodes.size

def place (v : View) (index : Int) : Nat := (v.places[index.toNat]?).getD 0

def entry (v : View) : Nat := v.place v.flow.function.entry

end View

def isCheckpoint (n : Flow.Node) : Bool := n.libfunc.any (·.role.isCheckpoint)

def calleeOf (n : Flow.Node) : Option FunctionId := n.libfunc.bind (·.role.callee?)

/-- Whether the need of a branch is paid before the statement; the success of a checkpoint withdraws
it itself. -/
def dependsOn (n : Flow.Node) (branch : Nat) : Bool := !(isCheckpoint n && branch == 0)

def dependencies (n : Flow.Node) : List (Flow.Edge × Nat) :=
  n.edges.zipIdx.filter fun (_, branch) => dependsOn n branch

def liveGas (types : Types) (state : Vars) : Bool :=
  state.any fun (_, t) => (types.info? t).any fun info => info.kind = .gasBuiltin

structure Prices where
  metering : Bool
  costs : Array (Option (List Int))
  entryCost : FunctionId → Int

namespace Prices

def ownCost (p : Prices) (n : Flow.Node) (branch : Nat) : Int :=
  ((((p.costs[n.index.toNat]?).getD none).getD [])[branch]?).getD 0

def branchCost (p : Prices) (n : Flow.Node) (branch : Nat) : Int :=
  if p.metering then
    match calleeOf n with
    | some callee => wrap64 (p.ownCost n branch + p.entryCost callee)
    | none => p.ownCost n branch
  else 0

end Prices

def toAmount (n : Int) : Nat := n.toNat

structure Amounts where
  view : View
  /-- The statements with a check put in before them. -/
  cut : Array Bool
  need : Array Int
  refunds : List (Int × Nat) := []

namespace Amounts

def isCut (cut : Array Bool) (i : Nat) : Bool := (cut[i]?).getD false

/-- Nothing is due where a check is put in. -/
def dueAt (cut : Array Bool) (need : Array Int) (i : Nat) : Int :=
  if isCut cut i then 0 else (need[i]?).getD 0

def due (a : Amounts) (i : Nat) : Int := dueAt a.cut a.need i

def entry (a : Amounts) : Int := a.due a.view.entry

def charges (a : Amounts) : List (Int × Nat) :=
  a.view.nodes.toList.filterMap fun n =>
    match isCheckpoint n, n.edges with
    | true, success :: _ => some (n.index, toAmount (a.due (a.view.place success.target)))
    | _, _ => none

def injected (a : Amounts) : List (Int × Nat) :=
  a.view.nodes.toList.zipIdx.filterMap fun (n, i) =>
    if isCut a.cut i then some (n.index, toAmount ((a.need[i]?).getD 0)) else none

end Amounts

/-- Targets of paid edges come before their sources, without edges into cut statements. -/
def needGraph (v : View) (cut : Array Bool) : Graph :=
  v.nodes.toList.zipIdx.foldl (fun graph (n, i) =>
    (dependencies n).foldl (fun graph (e, _) =>
      let t := v.place e.target
      if Amounts.isCut cut t then graph else graph.insertEdge t i) graph)
    (Graph.empty v.size)

def needOf (p : Prices) (v : View) (cut : Array Bool) (need : Array Int) (n : Flow.Node) : Int :=
  n.edges.zipIdx.foldl (fun best (e, branch) =>
    let c := p.branchCost n branch
    let c := if dependsOn n branch then
        wrap64 (c + Amounts.dueAt cut need (v.place e.target))
      else c
    max best c) 0

/-- In an order where successors come first. -/
def needs (p : Prices) (v : View) (cut : Array Bool) (order : List Nat) : Array Int :=
  order.foldl (fun need i =>
    match v.nodes[i]? with
    | none => need
    | some n => need.modify i fun _ => needOf p v cut need n) (Array.replicate v.size 0)

def unpaid : Int := pow2 63 - 1

def offer (paid : Array Int) (i : Nat) (amount : Int) : Array Int :=
  paid.modify i fun known => min known amount

def payments (v : View) (cut : Array Bool) (need : Array Int) : Array Int :=
  let needAt (i : Nat) : Int := (need[i]?).getD 0
  let start := offer (Array.replicate v.size unpaid) v.entry (needAt v.entry)
  v.nodes.toList.zipIdx.foldl (fun paid (n, i) =>
    let paid := if Amounts.isCut cut i then offer paid i (needAt i) else paid
    match isCheckpoint n, n.edges with
    | true, success :: _ =>
      let t := v.place success.target
      offer paid t (needAt t)
    | _, _ => paid) start

/-- A redeposit keeps what it needs and gives the rest back. -/
def passOn (p : Prices) (v : View) (cut : Array Bool) (need : Array Int)
    (state : Array Int × List (Int × Nat)) (i : Nat) : Array Int × List (Int × Nat) :=
  let (paid, refunds) := state
  match v.nodes[i]?, (paid[i]?).getD unpaid with
  | none, _ => state
  | some n, have_ =>
    if have_ = unpaid ∨ n.isReturn then state
    else
      let needed := (need[i]?).getD 0
      let gives := n.libfunc.any fun f => f.role = .redepositGas
      let refunds :=
        if gives then refunds ++ [(n.index, toAmount (wrap64 (have_ - needed)))] else refunds
      let left := if gives then needed else have_
      let paid := (dependencies n).foldl (fun paid (e, branch) =>
        let t := v.place e.target
        if Amounts.isCut cut t then paid
        else offer paid t (wrap64 (left - p.branchCost n branch))) paid
      (paid, refunds)

def refunds (p : Prices) (v : View) (cut : Array Bool) (need : Array Int) (order : List Nat) :
    List (Int × Nat) :=
  (order.reverse.foldl (passOn p v cut need) (payments v cut need, [])).2

/-- Where loops close, and the entry of a metered recursive function. -/
def cutsOf (metering isRecursive : Bool) (v : View) : Array Bool :=
  let next := v.nodes.map fun n => (dependencies n).map fun (e, _) => v.place e.target
  let cut := loopHeads next v.entry
  if isRecursive && metering then cut.modify v.entry fun _ => true else cut

/-- A loop that pays needs a gas counter. -/
def amountsOf (types : Types) (p : Prices) (isRecursive dynamic : Bool) (flow : Flow) :
    Except Failure Amounts := do
  let v := View.ofFlow flow
  let f := flow.function
  let cut := cutsOf p.metering isRecursive v
  let unmetered := v.nodes.toList.zipIdx.find? fun (n, i) =>
    Amounts.isCut cut i && p.metering && !liveGas types n.state
  match unmetered with
  | some (n, _) =>
    .error (.gas (.malformedCycle f.id.text n.index
      "loop without a gas builtin cannot be metered"))
  | none =>
    let layers := (needGraph v cut).layers
    if layers.cyclic then
      .error (.native (f.id.text ++ ": statement graph still cyclic after cutting loops"))
    else
      let need := needs p v cut layers.order
      return {
        view := v
        cut := cut
        need := need
        refunds := if dynamic && p.metering then refunds p v cut need layers.order else [] }

def fullGraph (v : View) : Graph :=
  v.nodes.toList.zipIdx.foldl (fun graph (n, i) =>
    n.edges.foldl (fun graph e => graph.insertEdge (v.place e.target) i) graph)
    (Graph.empty v.size)

/-- `none` when a function called has no bound. -/
def worstOf (p : Prices) (worstCase : FunctionId → Option Int) (v : View) (total : Array Int)
    (n : Flow.Node) : Option Int :=
  n.edges.zipIdx.foldlM (fun best (e, branch) => do
    let own := p.ownCost n branch
    let c ← match calleeOf n with
      | some callee => (worstCase callee).map fun inner => wrap64 (own + inner)
      | none => some own
    return max best (wrap64 (c + (total[v.place e.target]?).getD 0))) 0

def worstCaseOf (p : Prices) (worstCase : FunctionId → Option Int) (v : View) : Option Int :=
  let layers := (fullGraph v).layers
  if layers.cyclic then none
  else do
    let total ← layers.order.foldlM (fun total i =>
      match v.nodes[i]? with
      | none => some total
      | some n => do
        let worst ← worstOf p worstCase v total n
        return total.modify i fun _ => worst) (Array.replicate v.size 0)
    return (total[v.entry]?).getD 0

end Sierra.Gas
